import Mathlib.Data.Finset.Card
import Mathlib.Data.List.Nodup
import Mathlib.Logic.Function.Basic

/-!
# Singly linked lists on a heap

Nodes are allocated, linked and freed at addresses; a list is built through a pointer to its last
link. An access to an address that is not in use is an error, the content of a freed node is
still there.

## Main definitions

* `Heap`, `Heap.read`, `Heap.free`, `Heap.setValue`, `Heap.calloc`: memory and its accesses
* `Store`, `Link`, `Store.assign`: a heap with the variable of a list, and assignments to links
* `Heap.freeFrom`: the loop that frees a list
* `Seg`, `Chain`: the nodes from one pointer to another, and those of a list
* `Allocator`: the addresses given to new nodes

## Main results

* `Chain.congr`: a list lies where its nodes are as they were
* `Chain.unique`: a pointer starts one list only
* `Chain.freeFrom_eq`: freeing a list frees its nodes and no others
* `Chain.snoc`: a node added at the last link
-/

namespace LinkedList

variable {ι α : Type*}

/-- A node: its value and the pointer to the next node, `none` being null. -/
structure Node (ι α : Type*) where
  value : α
  next : Option ι

/-- The addresses in use, and the content of every node. -/
structure Heap (ι α : Type*) where
  live : Finset ι
  node : ι → Node ι α

/-- A heap with the variable that points to the first node of a list. -/
structure Store (ι α : Type*) where
  heap : Heap ι α
  head : Option ι

/-- A place that holds a pointer: the variable of the list, or the link of a node. -/
inductive Link (ι : Type*) where
  | head
  | next (a : ι)

/-- The addresses given to new nodes; none of them is in use. -/
structure Allocator (ι : Type*) where
  address : ℕ → Finset ι → ι
  fresh : ∀ i live, address i live ∉ live

/-! ## Accesses -/

section Access

variable [DecidableEq ι]

namespace Heap

def read (h : Heap ι α) (a : ι) : Option (Node ι α) :=
  if a ∈ h.live then some (h.node a) else none

def free (h : Heap ι α) (a : ι) : Option (Heap ι α) :=
  if a ∈ h.live then some { h with live := h.live.erase a } else none

def setNext (h : Heap ι α) (a : ι) (q : Option ι) : Option (Heap ι α) :=
  if a ∈ h.live then
    some { h with node := Function.update h.node a ⟨(h.node a).value, q⟩ }
  else none

def setValue (h : Heap ι α) (a : ι) (v : α) : Option (Heap ι α) :=
  if a ∈ h.live then
    some { h with node := Function.update h.node a ⟨v, (h.node a).next⟩ }
  else none

/-- A zeroed node at `a`. -/
def calloc [Inhabited α] (h : Heap ι α) (a : ι) : Heap ι α :=
  ⟨insert a h.live, Function.update h.node a ⟨default, none⟩⟩

theorem read_of_mem {h : Heap ι α} {a : ι} (ha : a ∈ h.live) : h.read a = some (h.node a) :=
  if_pos ha

theorem mem_of_read {h : Heap ι α} {a : ι} {n : Node ι α} (hread : h.read a = some n) :
    a ∈ h.live := by
  by_contra ha
  simp [read, ha] at hread

theorem free_of_mem {h : Heap ι α} {a : ι} (ha : a ∈ h.live) :
    h.free a = some { h with live := h.live.erase a } :=
  if_pos ha

/-- The loop that frees the nodes from a pointer on, to a null pointer. -/
def freeFrom (h : Heap ι α) (p : Option ι) : Option (Heap ι α) :=
  match p with
  | none => some h
  | some old =>
    match _hread : h.read old with
    | none => none
    | some n =>
      match _hfree : h.free old with
      | none => none
      | some h' => h'.freeFrom n.next
termination_by h.live.card
decreasing_by
  have hold : old ∈ h.live := mem_of_read _hread
  rw [free_of_mem hold] at _hfree
  cases _hfree
  exact Finset.card_erase_lt_of_mem hold

theorem freeFrom_some {h : Heap ι α} {a : ι} (ha : a ∈ h.live) :
    h.freeFrom (some a) = { h with live := h.live.erase a }.freeFrom (h.node a).next := by
  rw [freeFrom]
  split
  · next hread =>
    rw [read_of_mem ha] at hread
    cases hread
  · next n hread =>
    rw [read_of_mem ha] at hread
    cases hread
    split
    · next hfree =>
      rw [free_of_mem ha] at hfree
      cases hfree
    · next h' hfree =>
      rw [free_of_mem ha] at hfree
      cases hfree
      rfl

theorem setNext_live {h h' : Heap ι α} {a : ι} {q : Option ι} (hset : h.setNext a q = some h') :
    h'.live = h.live := by
  rw [setNext] at hset
  split at hset
  · cases hset
    rfl
  · cases hset

theorem setValue_live {h h' : Heap ι α} {a : ι} {v : α} (hset : h.setValue a v = some h') :
    h'.live = h.live := by
  rw [setValue] at hset
  split at hset
  · cases hset
    rfl
  · cases hset

end Heap

/-- An assignment to a link. -/
def Store.assign (s : Store ι α) (link : Link ι) (p : Option ι) : Option (Store ι α) :=
  match link with
  | .head => some ⟨s.heap, p⟩
  | .next a => (s.heap.setNext a p).map fun h => ⟨h, s.head⟩

/-- An assignment allocates and frees no node. -/
theorem Store.assign_live {s s' : Store ι α} {link : Link ι} {p : Option ι}
    (hassign : s.assign link p = some s') : s'.heap.live = s.heap.live := by
  cases link with
  | head =>
    cases hassign
    rfl
  | next a =>
    obtain ⟨h, hset, rfl⟩ := Option.map_eq_some_iff.mp hassign
    exact Heap.setNext_live hset

end Access

/-! ## Lists -/

/-- From `p` the nodes at the addresses `as` lead to `q`, and are in use. -/
def Seg (h : Heap ι α) : Option ι → List ι → Option ι → Prop
  | p, [], q => p = q
  | p, a :: as, q => p = some a ∧ a ∈ h.live ∧ Seg h (h.node a).next as q

/-- A list that ends: from `p` the nodes at `as`, all in use and none of them twice, lead to a null
pointer. -/
structure Chain (h : Heap ι α) (p : Option ι) (as : List ι) : Prop where
  seg : Seg h p as none
  nodup : as.Nodup

/-- The values of the nodes at `as`. -/
def Heap.values (h : Heap ι α) (as : List ι) : List α := as.map fun a => (h.node a).value

/-- The last link of the list of the nodes at `as`. -/
def lastLink (as : List ι) : Link ι :=
  match as.getLast? with
  | none => .head
  | some a => .next a

@[simp] theorem lastLink_nil : lastLink ([] : List ι) = .head := rfl

@[simp] theorem lastLink_concat (as : List ι) (a : ι) : lastLink (as ++ [a]) = .next a := by
  simp [lastLink]

section Lists

variable {h h' : Heap ι α} {p q : Option ι} {as bs : List ι} {a : ι}

theorem Seg.mem_live (hseg : Seg h p as q) (ha : a ∈ as) : a ∈ h.live := by
  induction as generalizing p with
  | nil => cases ha
  | cons b as ih =>
    obtain ⟨-, hb, hrest⟩ := hseg
    rcases List.mem_cons.mp ha with rfl | ha
    · exact hb
    · exact ih hrest ha

/-- A segment lies where its nodes are as they were. -/
theorem Seg.congr (hseg : Seg h p as q)
    (hsame : ∀ a ∈ as, a ∈ h'.live ∧ h'.node a = h.node a) : Seg h' p as q := by
  induction as generalizing p with
  | nil => exact hseg
  | cons b as ih =>
    obtain ⟨hp, -, hrest⟩ := hseg
    obtain ⟨⟨hlive, hnode⟩, hsame⟩ := List.forall_mem_cons.mp hsame
    refine ⟨hp, hlive, ?_⟩
    rw [hnode]
    exact ih hrest hsame

theorem seg_append : Seg h p (as ++ bs) q ↔ ∃ r, Seg h p as r ∧ Seg h r bs q := by
  induction as generalizing p with
  | nil => simp [Seg]
  | cons b as ih =>
    rw [List.cons_append]
    constructor
    · rintro ⟨hp, hb, hrest⟩
      obtain ⟨r, has, hbs⟩ := ih.mp hrest
      exact ⟨r, ⟨hp, hb, has⟩, hbs⟩
    · rintro ⟨r, ⟨hp, hb, has⟩, hbs⟩
      exact ⟨hp, hb, ih.mpr ⟨r, has, hbs⟩⟩

theorem chain_nil : Chain h none [] := ⟨rfl, List.nodup_nil⟩

/-- A null pointer starts the empty list only. -/
theorem Chain.eq_nil (hchain : Chain h none as) : as = [] := by
  cases as with
  | nil => rfl
  | cons a as => cases hchain.seg.1

/-- A pointer that is not null starts a list at its node. -/
theorem Chain.eq_cons (hchain : Chain h (some a) as) :
    a ∈ h.live ∧ ∃ rest, as = a :: rest ∧ a ∉ rest ∧ Chain h (h.node a).next rest := by
  cases as with
  | nil => cases hchain.seg
  | cons b rest =>
    obtain ⟨hp, hb, hrest⟩ := hchain.seg
    obtain rfl := Option.some.inj hp
    obtain ⟨hnot, hnodup⟩ := List.nodup_cons.mp hchain.nodup
    exact ⟨hb, rest, rfl, hnot, hrest, hnodup⟩

/-- A pointer starts one list only. -/
theorem Chain.unique (has : Chain h p as) (hbs : Chain h p bs) : as = bs := by
  induction as generalizing p bs with
  | nil =>
    obtain rfl : p = none := has.seg
    exact hbs.eq_nil.symm
  | cons a as ih =>
    obtain rfl : p = some a := has.seg.1
    obtain ⟨-, rest, hcons, -, hrest⟩ := has.eq_cons
    obtain rfl : as = rest := (List.cons.inj hcons).2
    obtain ⟨-, rest', rfl, -, hrest'⟩ := hbs.eq_cons
    rw [ih hrest hrest']

/-- A list lies where its nodes are as they were. -/
theorem Chain.congr (hchain : Chain h p as)
    (hsame : ∀ a ∈ as, a ∈ h'.live ∧ h'.node a = h.node a) : Chain h' p as :=
  ⟨hchain.seg.congr hsame, hchain.nodup⟩

/-- A list has no more nodes than are in use. -/
theorem Chain.length_le (hchain : Chain h p as) : as.length ≤ h.live.card := by
  classical
  rw [← List.toFinset_card_of_nodup hchain.nodup]
  exact Finset.card_le_card fun a ha => hchain.seg.mem_live (List.mem_toFinset.mp ha)

theorem values_congr (hsame : ∀ a ∈ as, (h'.node a).value = (h.node a).value) :
    h'.values as = h.values as :=
  List.map_congr_left hsame

theorem values_append : h.values (as ++ bs) = h.values as ++ h.values bs := List.map_append

theorem seg_singleton {r : Option ι} :
    Seg h p [a] r ↔ p = some a ∧ a ∈ h.live ∧ (h.node a).next = r := Iff.rfl

/-- The list of the node `l` at its end goes on to a new node when `l` is linked to it. -/
theorem Chain.concat_snoc {l : ι} (hchain : Chain h p (as ++ [l])) (ha : a ∉ as ++ [l])
    (hlive : ∀ b ∈ as ++ [l], b ∈ h'.live) (halive : a ∈ h'.live)
    (hlink : (h'.node l).next = some a) (hend : (h'.node a).next = none)
    (hsame : ∀ b ∈ as, h'.node b = h.node b) : Chain h' p (as ++ [l] ++ [a]) := by
  obtain ⟨r, has, hl⟩ := seg_append.mp hchain.seg
  obtain ⟨rfl, -, -⟩ := seg_singleton.mp hl
  have hinner : Seg h' p as (some l) :=
    has.congr fun b hb => ⟨hlive b (List.mem_append_left _ hb), hsame b hb⟩
  have hlast : Seg h' (some l) [l] (some a) :=
    seg_singleton.mpr ⟨rfl, hlive l (by simp), hlink⟩
  have hnew : Seg h' (some a) [a] none := seg_singleton.mpr ⟨rfl, halive, hend⟩
  refine ⟨seg_append.mpr ⟨_, seg_append.mpr ⟨_, hinner, hlast⟩, hnew⟩, ?_⟩
  exact List.nodup_append.mpr ⟨hchain.nodup, List.nodup_singleton a, fun b hb c hc heq =>
    ha (List.mem_singleton.mp hc ▸ heq ▸ hb)⟩

variable [DecidableEq ι]

/-- Freeing a list frees its nodes and no others. -/
theorem Chain.freeFrom_eq (hchain : Chain h p as) :
    ∃ h', h.freeFrom p = some h' ∧ h'.node = h.node ∧
      ∀ b, b ∈ h'.live ↔ b ∈ h.live ∧ b ∉ as := by
  induction as generalizing h p with
  | nil =>
    obtain rfl : p = none := hchain.seg
    exact ⟨h, by rw [Heap.freeFrom], rfl, by simp⟩
  | cons a as ih =>
    obtain rfl : p = some a := hchain.seg.1
    obtain ⟨ha, rest, hcons, hnot, hrest⟩ := hchain.eq_cons
    obtain rfl : as = rest := (List.cons.inj hcons).2
    -- the rest does not pass the node freed
    have hrest' : Chain { h with live := h.live.erase a } (h.node a).next as := by
      refine hrest.congr fun b hb => ⟨?_, rfl⟩
      exact Finset.mem_erase.mpr ⟨ne_of_mem_of_not_mem hb hnot, hrest.seg.mem_live hb⟩
    obtain ⟨h', hfree, hnode, hlive⟩ := ih hrest'
    refine ⟨h', ?_, hnode, ?_⟩
    · rw [Heap.freeFrom_some ha, hfree]
    · intro b
      rw [hlive, Finset.mem_erase, List.mem_cons, not_or]
      tauto

/-- A node added at the last link of a list, and given its value, ends the list; no other node in
use changes. -/
theorem Chain.snoc [Inhabited α] {s : Store ι α} (hchain : Chain s.heap s.head as)
    (ha : a ∉ s.heap.live) (v : α) :
    ∃ s' h', Store.assign ⟨s.heap.calloc a, s.head⟩ (lastLink as) (some a) = some s' ∧
      s'.heap.setValue a v = some h' ∧ Chain h' s'.head (as ++ [a]) ∧
      h'.values (as ++ [a]) = s.heap.values as ++ [v] ∧
      ∀ b ∈ s.heap.live, b ∈ h'.live ∧ (b ∉ as → h'.node b = s.heap.node b) := by
  -- a node in use is not the new one
  have hne : ∀ b ∈ s.heap.live, b ≠ a := fun b hb => ne_of_mem_of_not_mem hb ha
  have halive : a ∈ (s.heap.calloc a).live := Finset.mem_insert_self _ _
  rcases as.eq_nil_or_concat' with rfl | ⟨bs, l, rfl⟩
  · -- the variable is the last link
    refine ⟨⟨s.heap.calloc a, some a⟩, _, rfl, if_pos halive, ?_, ?_, ?_⟩
    · refine ⟨seg_singleton.mpr ⟨rfl, halive, ?_⟩, List.nodup_singleton a⟩
      simp [Heap.calloc]
    · simp [Heap.values]
    · intro b hb
      refine ⟨Finset.mem_insert_of_mem hb, fun _ => ?_⟩
      simp [Heap.calloc, hne b hb]
  · have hlmem : l ∈ s.heap.live := hchain.seg.mem_live (by simp)
    have hla : l ≠ a := hne l hlmem
    have hl : l ∈ (s.heap.calloc a).live := Finset.mem_insert_of_mem hlmem
    have hnot : a ∉ bs ++ [l] := fun hmem => ha (hchain.seg.mem_live hmem)
    have hlbs : l ∉ bs := fun hmem =>
      (List.nodup_append.mp hchain.nodup).2.2 l hmem l List.mem_cons_self rfl
    have hassign : Store.assign ⟨s.heap.calloc a, s.head⟩ (lastLink (bs ++ [l])) (some a) =
        some ⟨⟨(s.heap.calloc a).live, Function.update (s.heap.calloc a).node l
          ⟨((s.heap.calloc a).node l).value, some a⟩⟩, s.head⟩ := by
      rw [lastLink_concat, Store.assign, Heap.setNext, if_pos hl]
      rfl
    refine ⟨_, _, hassign, if_pos halive, ?_, ?_, ?_⟩
    · refine hchain.concat_snoc hnot ?_ halive ?_ ?_ ?_
      · intro b hb
        exact Finset.mem_insert_of_mem (hchain.seg.mem_live hb)
      · simp [hla]
      · simp [Heap.calloc, hla.symm]
      · intro b hb
        have hbl : b ≠ l := ne_of_mem_of_not_mem hb hlbs
        have hba : b ≠ a := hne b (hchain.seg.mem_live (List.mem_append_left _ hb))
        simp [Heap.calloc, hbl, hba]
    · have hvalues : ∀ b ∈ bs ++ [l], b ≠ a := fun b hb => ne_of_mem_of_not_mem hb hnot
      rw [values_append]
      refine congrArg₂ _ (values_congr fun b hb => ?_) (by simp [Heap.values])
      by_cases hbl : b = l
      · simp [hbl, Heap.calloc, hla]
      · simp [Heap.calloc, hbl, hvalues b hb]
    · intro b hb
      refine ⟨Finset.mem_insert_of_mem hb, fun hnotin => ?_⟩
      have hbl : b ≠ l := fun heq => hnotin (by simp [heq])
      simp [Heap.calloc, hbl, hne b hb]

end Lists

end LinkedList
