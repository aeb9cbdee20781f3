import StxSnmp.Library.PrefixReader
import StxSnmp.Trap.Senders

/-!
# The buffer a message is parsed from

A message is received into a buffer of exactly its length, with no room for a NUL, and the buffer
is given to `json_tokener_parse`, which takes a C string: it reads on past the end of the buffer
unless a NUL or the end of the JSON value comes before.

## Main definitions

* `Tokener`: `json_tokener_parse` as a reader of bytes
* `dispatch`: `process_json_alarm` after the parse
* `processBuffer`: `process_json_alarm` on a buffer and the memory after it

## Main results

* `processBuffer_eq_processJsonAlarm`: with a NUL ahead the buffer is a C string
* `processBuffer_independent_iff`: the memory after the buffer does not matter iff the parser stops
  within the buffer
* `unterminated_object_depends`: an object that lacks its last brace
-/

namespace StxSnmp.Trap

/-- The parser: what the bytes read so far parse to, once they complete a value or an error, which a
NUL always does. -/
structure Tokener where
  result : List UInt8 → Option Json
  nul_decides : ∀ seen, (result (seen ++ [0])).isSome

def Tokener.reader (t : Tokener) : PrefixReader UInt8 Json := ⟨t.result, 0, t.nul_decides⟩

/-- `json_tokener_parse` at the start of some readable memory; none if it reads past its end. -/
def Tokener.parse (t : Tokener) (mem : List UInt8) : Option Json := t.reader.readFrom [] mem

section Buffer

variable (t : Tokener) (jc : JsonC)

/-- The part of `process_json_alarm` after the parse. -/
def dispatch (parsedJson : Json) : Sent :=
  let operationType := (jc.objectGetEx parsedJson "operation_type").getD .null
  (selectSender jc (jc.getString operationType) parsedJson).map fun sent => (0, sent.2)

/-- `process_json_alarm` on the buffer of a message, `after` being the readable memory that follows
it; none if the parser leaves that too. -/
def processBuffer (payload after : List UInt8) : Option Sent :=
  (t.parse (payload ++ after)).map (dispatch jc)

theorem processJsonAlarm_some (msg : String) :
    processJsonAlarm jc (some msg) = dispatch jc (jc.tokenerParse msg) := rfl

/-! ## Buffers and C strings -/

/-- The C string of some bytes. -/
def text (bytes : List UInt8) : String :=
  String.ofList (bytes.map fun b => Char.ofNat b.toNat)

/-- The bytes of a C string. -/
def bytesOf (s : String) : List UInt8 := s.toList.map fun c => UInt8.ofNat c.toNat

theorem bytesOf_text (bytes : List UInt8) : bytesOf (text bytes) = bytes := by
  have hbyte (b : UInt8) : UInt8.ofNat (Char.ofNat b.toNat).toNat = b := by
    have hvalid : b.toNat.isValidChar := Or.inl (by have := b.toNat_lt; omega)
    have hchar : (Char.ofNat b.toNat).toNat = b.toNat := by
      rw [Char.ofNat, dif_pos hvalid]
      rfl
    rw [hchar, UInt8.ofNat_toNat]
  simp [bytesOf, text, Function.comp_def, hbyte]

/-- The library with this parser; a C string ends with its NUL. -/
def JsonC.withTokener : JsonC :=
  { jc with tokenerParse := fun s => (t.parse (bytesOf s ++ [0])).getD .null }

/-- With a NUL ahead, what is processed is the C string before it. -/
theorem processBuffer_eq_processJsonAlarm {payload after s rest : List UInt8}
    (h : payload ++ after = s ++ 0 :: rest) :
    processBuffer t jc payload after =
      some (processJsonAlarm (jc.withTokener t) (some (text s))) := by
  have hmem : s ++ 0 :: rest = (s ++ [0]) ++ rest := by simp
  have hstops : (t.parse (s ++ [0])).isSome := t.reader.readFrom_terminated
  obtain ⟨parsedJson, hparse⟩ := Option.isSome_iff_exists.mp hstops
  -- what lies beyond the NUL is not read
  have hread : t.parse (payload ++ after) = some parsedJson := by
    rw [h, hmem]
    exact t.reader.readFrom_append_of_some hparse
  rw [processBuffer, hread, processJsonAlarm_some]
  show _ = some (dispatch jc ((t.parse (bytesOf (text s) ++ [0])).getD .null))
  rw [bytesOf_text, hparse]
  rfl

/-! ## What the outcome depends on -/

/-- **The outcome depends on the bytes received alone iff the parser stops within them**, at a NUL
or at the end of a value or an error. -/
theorem processBuffer_independent_iff (payload : List UInt8) :
    (∀ after after', processBuffer t jc payload after = processBuffer t jc payload after') ↔
      (t.parse payload).isSome :=
  t.reader.readFrom_independent_iff (dispatch jc)

end Buffer

/-- A parser that knows one message, and fails at a NUL. -/
def Tokener.knowing (message : String) (parsed : Json) : Tokener where
  result bytes :=
    if bytes = bytesOf message then some parsed
    else if bytes.getLast? = some 0 then some .null else none
  nul_decides seen := by
    split_ifs <;> simp_all

/-- It reads its message to the end, whatever follows. -/
theorem Tokener.parse_knowing {message : String} (parsed : Json) (h : 0 ∉ bytesOf message)
    (after : List UInt8) :
    (Tokener.knowing message parsed).parse (bytesOf message ++ after) = some parsed := by
  refine PrefixReader.readFrom_append_of_some _ (PrefixReader.readFrom_of_first _ ?_ ?_)
  · exact if_pos rfl
  · intro front hfront hne
    -- a shorter front does not end in a NUL
    have hlast : front.getLast? ≠ some 0 := fun hzero =>
      h (hfront.subset (List.mem_of_getLast? hzero))
    exact (if_neg hne).trans (if_neg hlast)

def warmStartTokener : Tokener :=
  .knowing "\x7b\"operation_type\":\"warmStart\"\x7d"
    (.object [("operation_type", .string warmStart)])

/-- A warm start that lacks its last brace is sent if a brace follows in memory, and crashes the
dispatcher if a NUL does. -/
theorem unterminated_object_depends :
    let payload := bytesOf "\x7b\"operation_type\":\"warmStart\""
    let jc := JsonC.ofParse fun _ => .null
    processBuffer warmStartTokener jc payload [0x7d, 0] =
        some (.ok (0, [[⟨snmptrapOid, .objectId wrsWarmStartOid⟩]])) ∧
      processBuffer warmStartTokener jc payload [0] = some (.error .strcmp) :=
  ⟨rfl, rfl⟩

end StxSnmp.Trap
