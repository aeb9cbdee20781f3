import StxSnmp.Audit.InvalidOids
import StxSnmp.Audit.Once
import StxSnmp.Library.SectionedLog

/-!
# Reading the audit log

net-snmp enters the plugin at three places: at the access check of a request, at the checks made
while it is processed, and in the chain of handlers. The entries for one PDU come between those for
others, and all write to one log. What it says can be read from it all the same: each header is
followed by the names of its PDU, no result comes between them, and every line says whose it is.

## Main definitions

* `Entry`, `pluginStep`: an entry of net-snmp into the plugin
* `announcements`: the PDUs the log announces over a run, in order
* `Entry.results`: the results an entry logs

## Main results

* `pluginStep_lines`: an entry logs the PDU it announces, if any, and then its results
* `audit_log_reads_back`: the log of a run is read back
-/

namespace StxSnmp.Audit

open Transducer SectionedLog

/-- An entry of net-snmp into the plugin: `SNMPD_CALLBACK_ACM_CHECK_INITIAL`,
`SNMPD_CALLBACK_ACM_CHECK`, or the handler. -/
inductive Entry where
  | checkInitial (errorcode : ℤ) (pdu : ContextPdu)
  | check (errorcode : ℤ) (pdu : Pdu)
  | handle (call : Call)

/-- The PDU the entry is made for. -/
def Entry.pdu : Entry → Pdu
  | checkInitial _ pdu => pdu.toPdu
  | check _ pdu => pdu
  | handle call => call.origPdu

def snmpMsgSet : ℤ := 0xA3

section Plugin

variable (N : NetSnmp) (R : Registry)

/-- The local `status_buf`, cut to its size. -/
def statusBuf (errorcode : ℤ) : String :=
  String.ofList ((" status:" ++ getAuthError errorcode).toList.take (logBufStr - 1))

/-- `audit_callback_acm_check`, for the error code of the check. -/
def auditCallbackAcmCheck (errorcode : ℤ) (pdu : Pdu) : List Line :=
  if pdu.command = snmpMsgSet then
    logPduHeader N pdu (statusBuf errorcode) ++ logVarList N pdu
  else []

/-- The plugin: an entry on the static pair of the handler. -/
def pluginStep (req : AuditReq) : Entry → AuditReq × List Line
  | .checkInitial errorcode pdu => (req, auditCallbackAcmCheckInitial N R errorcode pdu)
  | .check errorcode pdu => (req, auditCallbackAcmCheck N errorcode pdu)
  | .handle call => ((auditLogHandler N req call).1, (auditLogHandler N req call).2.1)

/-! ## What a run announces -/

/-- The outcome of an access check. -/
def shownAccess : ℤ → String
  | 0 => "Success"
  | 1 => "InvalidCommunityName"
  | 2 => "NoGroup"
  | 3 => "NoAccess"
  | 4 => "NoViewAccess"
  | 5 => "NotInView"
  | 6 => "NoSuchContext"
  | 7 => "SubtreeUnknown"
  | _ => "unknown err"

/-- A PDU announced in the log, and the status beside it. -/
structure Announcement where
  pdu : Pdu
  status : String
  deriving DecidableEq, Repr

/-- Its section in the log: its header, and the names of its varbinds. -/
def Announcement.shown (a : Announcement) : Line × List Line :=
  (shownHeader N a.pdu a.status, shownNames N a.pdu.reqid a.pdu.variableList)

def Announcement.lines (a : Announcement) : List Line := (a.shown N).1 :: (a.shown N).2

/-- The request asks for the names after its own, of which one is invalid. -/
def AsksBeyond (pdu : ContextPdu) : Prop :=
  (pdu.command = snmpMsgGetBulk ∨ pdu.command = snmpMsgGetNext) ∧
    ∃ name ∈ pdu.variableList, Invalid R pdu.contextName name

instance (pdu : ContextPdu) : Decidable (AsksBeyond R pdu) :=
  inferInstanceAs (Decidable (_ ∧ _))

/-- The PDU an entry announces: one refused, one that asks beyond the tree, a `SET` checked, and a
call for a PDU that has neither id of the one its handler announced last. -/
def announced (last : AuditReq) : Entry → Option Announcement
  | .checkInitial errorcode pdu =>
    if errorcode ≠ vacmSuccess then some ⟨pdu.toPdu, " status:" ++ shownAccess errorcode⟩
    else if AsksBeyond R pdu then some ⟨pdu.toPdu, ""⟩ else none
  | .check errorcode pdu =>
    if pdu.command = snmpMsgSet then some ⟨pdu, " status:" ++ shownAccess errorcode⟩ else none
  | .handle call =>
    if last.transid ≠ call.origPdu.transid ∧ last.reqid ≠ call.origPdu.reqid then
      some ⟨call.origPdu, ""⟩
    else none

/-- The ids of the PDU the handler announced last, after an entry. -/
def lastAnnounced (last : AuditReq) (e : Entry) : AuditReq :=
  match e, announced R last e with
  | .handle _, some a => ⟨a.pdu.transid, a.pdu.reqid⟩
  | _, _ => last

/-- The PDUs announced over a run. -/
def announcements : AuditReq → List Entry → List Announcement
  | _, [] => []
  | last, e :: es => (announced R last e).toList ++ announcements (lastAnnounced R last e) es

/-- The results of an entry: those of the names no subtree answers, and those of the handlers. -/
def Entry.results : Entry → List Line
  | checkInitial errorcode pdu =>
    if errorcode = vacmSuccess ∧ (pdu.command = snmpMsgGetBulk ∨ pdu.command = snmpMsgGetNext) then
      (pdu.variableList.filter fun name => Invalid R pdu.contextName name).map
        (shownInvalid N pdu.reqid)
    else []
  | check _ _ => []
  | handle call => shownResults N call.origPdu.reqid call.requests

end Plugin

/-! ## Reading it back -/

def Line.isHeader : Line → Bool
  | .header .. => true
  | _ => false

def Line.isVariable : Line → Bool
  | .variable .. => true
  | _ => false

def Line.isResult : Line → Bool
  | .result .. => true
  | _ => false

def Line.reqid : Line → ℤ
  | .header _ reqid .. => reqid
  | .variable reqid .. => reqid
  | .result reqid .. => reqid

section Lines

variable {N : NetSnmp} {R : Registry}

/-- No status is cut. -/
theorem statusBuf_eq (errorcode : ℤ) :
    statusBuf errorcode = " status:" ++ getAuthError errorcode := by
  have hfits : (" status:" ++ getAuthError errorcode).toList.length ≤ logBufStr - 1 := by
    rw [getAuthError, getStrFromEnum]
    split
    · next entry hentry =>
      have hmem := List.mem_of_find?_eq_some hentry
      simp only [List.mem_cons, List.not_mem_nil, or_false] at hmem
      rcases hmem with rfl | rfl | rfl | rfl | rfl | rfl | rfl | rfl <;> decide
    · decide
  rw [statusBuf, List.take_of_length_le hfits, String.ofList_toList]

theorem getAuthError_eq (errorcode : ℤ) : getAuthError errorcode = shownAccess errorcode := by
  unfold shownAccess
  split
  case h_9 =>
    -- the table has no entry for the code
    rw [getAuthError, getStrFromEnum, List.find?_eq_none.mpr]
    · rfl
    · simp only [vacmSuccess, List.forall_mem_cons, decide_eq_true_eq]
      grind
  all_goals rfl

/-- The names no subtree answers are announced with the names of their PDU, before the first. -/
theorem logInvalidOidTrees_lines (pdu : ContextPdu) :
    logInvalidOidTrees N R pdu =
      (if ∃ name ∈ pdu.variableList, Invalid R pdu.contextName name then
        Announcement.lines N ⟨pdu.toPdu, ""⟩ else []) ++
      (pdu.variableList.filter fun name => Invalid R pdu.contextName name).map
        (shownInvalid N pdu.reqid) := by
  have hlines := logInvalidFrom_true (N := N) (R := R) pdu pdu.variableList
  rw [logInvalidOidTrees, hlines]
  by_cases hnone : pdu.variableList.filter (fun name => Invalid R pdu.contextName name) = []
  · have hvalid : ¬ ∃ name ∈ pdu.variableList, Invalid R pdu.contextName name := by
      simpa using hnone
    simp [hnone, hvalid]
  · have hinvalid : ∃ name ∈ pdu.variableList, Invalid R pdu.contextName name := by
      simpa using hnone
    rw [if_neg hnone, if_pos hinvalid]
    rfl

/-- An entry logs the PDU it announces, if any, and then its results. -/
theorem pluginStep_lines (req : AuditReq) (e : Entry) :
    (pluginStep N R req e).2 =
      (announced R req e).toList.flatMap (Announcement.lines N) ++ e.results N R := by
  cases e with
  | checkInitial errorcode pdu =>
    simp only [pluginStep, auditCallbackAcmCheckInitial, announced, Entry.results, AsksBeyond]
    by_cases hrefused : errorcode = vacmSuccess
    · by_cases hnext : pdu.command = snmpMsgGetBulk ∨ pdu.command = snmpMsgGetNext
      · simp only [hrefused, hnext, ne_eq, not_true, if_false, if_true, true_and,
          logInvalidOidTrees_lines]
        split <;> simp
      · simp [hrefused, hnext]
    · simp [hrefused, Announcement.lines, Announcement.shown, shownHeader, logVarList_eq,
        logSessionAddresses_eq, getVersion_eq, getAuthError_eq]
  | check errorcode pdu =>
    simp only [pluginStep, auditCallbackAcmCheck, statusBuf_eq, getAuthError_eq, announced,
      Entry.results, List.append_nil, logVarList_eq]
    split <;> simp [Announcement.lines, Announcement.shown, logPduHeader_eq]
  | handle call =>
    simp only [pluginStep, auditLogHandler, announced, Entry.results, logVarList_eq, logResults_eq]
    split <;> simp [Announcement.lines, Announcement.shown, logPduHeader_eq]

/-- The results of an entry are result lines, with the request id of its PDU. -/
theorem exists_of_mem_results {e : Entry} {line : Line} (h : line ∈ e.results N R) :
    ∃ oid mark status, line = .result e.pdu.reqid oid mark status := by
  cases e with
  | checkInitial errorcode pdu =>
    rw [Entry.results] at h
    split at h
    · obtain ⟨name, -, rfl⟩ := List.mem_map.mp h
      exact ⟨_, _, _, rfl⟩
    · exact absurd h List.not_mem_nil
  | check errorcode pdu => exact absurd h List.not_mem_nil
  | handle call =>
    obtain ⟨var, -, rfl⟩ := List.mem_map.mp h
    exact ⟨_, _, _, rfl⟩

/-- An announcement is one section, without a result. -/
theorem sections_announcement (a : Announcement) :
    sections Line.isHeader Line.isVariable (a.lines N) = [a.shown N] := by
  refine sections_section rfl fun line hline => ?_
  obtain ⟨name, -, rfl⟩ := List.mem_map.mp hline
  exact ⟨rfl, rfl⟩

theorem filter_isResult_announcement (a : Announcement) :
    (a.lines N).filter Line.isResult = [] := by
  refine List.filter_eq_nil_iff.mpr fun line hline => ?_
  obtain rfl | hname := List.mem_cons.mp hline
  · exact Bool.false_ne_true
  · obtain ⟨name, -, rfl⟩ := List.mem_map.mp hname
    exact Bool.false_ne_true

theorem reqid_announcement {a : Announcement} {line : Line} (h : line ∈ a.lines N) :
    line.reqid = a.pdu.reqid := by
  obtain rfl | hname := List.mem_cons.mp h
  · rfl
  · obtain ⟨name, -, rfl⟩ := List.mem_map.mp hname
    rfl

/-- What an entry announces is its own PDU. -/
theorem announced_pdu {last : AuditReq} {e : Entry} {a : Announcement}
    (h : announced R last e = some a) : a.pdu = e.pdu := by
  cases e <;> simp only [announced] at h <;> split_ifs at h <;>
    obtain rfl := Option.some.inj h <;> rfl

/-! ## The log of an entry -/

theorem opens_results (e : Entry) : Opens Line.isVariable (e.results N R) := by
  intro line hline
  obtain ⟨oid, mark, status, rfl⟩ := exists_of_mem_results (List.mem_of_mem_head? hline)
  rfl

/-- No entry starts with a name, so none is taken for the section before. -/
theorem opens_pluginStep (req : AuditReq) (e : Entry) :
    Opens Line.isVariable (pluginStep N R req e).2 := by
  rw [pluginStep_lines]
  cases announced R req e with
  | none => exact opens_results e
  | some a =>
    intro line hline
    obtain rfl : _ = line := Option.some.inj hline
    rfl

/-- An entry is read as what it announces. -/
theorem sections_pluginStep (req : AuditReq) (e : Entry) :
    sections Line.isHeader Line.isVariable (pluginStep N R req e).2 =
      (announced R req e).toList.map (Announcement.shown N) := by
  have hresults : sections Line.isHeader Line.isVariable (e.results N R) = [] := by
    refine sections_eq_nil fun line hline => ?_
    obtain ⟨oid, mark, status, rfl⟩ := exists_of_mem_results hline
    rfl
  rw [pluginStep_lines, sections_append (opens_results e), hresults, List.append_nil]
  cases announced R req e with
  | none => rfl
  | some a => simp [sections_announcement]

theorem filter_isResult_pluginStep (req : AuditReq) (e : Entry) :
    (pluginStep N R req e).2.filter Line.isResult = e.results N R := by
  have hresults : (e.results N R).filter Line.isResult = e.results N R := by
    refine List.filter_eq_self.mpr fun line hline => ?_
    obtain ⟨oid, mark, status, rfl⟩ := exists_of_mem_results hline
    rfl
  rw [pluginStep_lines, List.filter_append, hresults]
  cases announced R req e with
  | none => rfl
  | some a => simp [filter_isResult_announcement]

theorem reqid_pluginStep {req : AuditReq} {e : Entry} {line : Line}
    (h : line ∈ (pluginStep N R req e).2) : line.reqid = e.pdu.reqid := by
  rw [pluginStep_lines] at h
  obtain hannounced | hresult := List.mem_append.mp h
  · obtain ⟨a, ha, hline⟩ := List.mem_flatMap.mp hannounced
    rw [reqid_announcement hline, announced_pdu (Option.mem_toList.mp ha)]
  · obtain ⟨oid, mark, status, rfl⟩ := exists_of_mem_results hresult
    rfl

/-- The static pair of the plugin is the ids of the PDU its handler announced last. -/
theorem pluginStep_state (req : AuditReq) (e : Entry) :
    (pluginStep N R req e).1 = lastAnnounced R req e := by
  cases e with
  | checkInitial errorcode pdu => rfl
  | check errorcode pdu => rfl
  | handle call =>
    simp only [pluginStep, auditLogHandler, lastAnnounced, announced]
    split <;> rfl

end Lines

section Run

variable (N : NetSnmp) (R : Registry)

/-- The PDU of an entry has the request id. -/
def Entry.about? (reqid : ℤ) (e : Entry) : Option Entry :=
  if e.pdu.reqid = reqid then some e else none

theorem sections_outputs (req : AuditReq) (entries : List Entry) :
    (outputs (pluginStep N R) req entries).flatMap (sections Line.isHeader Line.isVariable) =
      (announcements R req entries).map (Announcement.shown N) := by
  induction entries generalizing req with
  | nil => rfl
  | cons e entries ih =>
    rw [outputs_cons, List.flatMap_cons, sections_pluginStep, pluginStep_state, ih, announcements,
      List.map_append]

theorem results_outputs (req : AuditReq) (entries : List Entry) :
    (outputs (pluginStep N R) req entries).flatten.filter Line.isResult =
      entries.flatMap (Entry.results N R) := by
  induction entries generalizing req with
  | nil => rfl
  | cons e entries ih =>
    rw [outputs_cons, List.flatten_cons, List.filter_append, filter_isResult_pluginStep, ih,
      List.flatMap_cons]

theorem reqid_outputs (reqid : ℤ) (req : AuditReq) (entries : List Entry) :
    (outputs (pluginStep N R) req entries).flatten.filter (fun line => line.reqid = reqid) =
      (answers (Entry.about? reqid) entries (outputs (pluginStep N R) req entries)).flatten := by
  induction entries generalizing req with
  | nil => rfl
  | cons e entries ih =>
    rw [outputs_cons, List.flatten_cons, List.filter_append, ih]
    by_cases habout : e.pdu.reqid = reqid
    · have hall : (pluginStep N R req e).2.filter (fun line => line.reqid = reqid) =
          (pluginStep N R req e).2 := by
        refine List.filter_eq_self.mpr fun line hline => ?_
        simp [reqid_pluginStep hline, habout]
      rw [hall, answers_cons_some _ _ _ (by simp [Entry.about?, habout]), List.flatten_cons]
    · have hnone : (pluginStep N R req e).2.filter (fun line => line.reqid = reqid) = [] := by
        refine List.filter_eq_nil_iff.mpr fun line hline => ?_
        simp [reqid_pluginStep hline, habout]
      have hother : Entry.about? reqid e = none := if_neg habout
      rw [hnone, answers_cons_none _ _ _ hother, List.nil_append]

/-- **The log is read back**: from any run of the plugin, its entries in any order, the headers with
the names after them are the PDUs announced, in order and each with all of its names; the other
lines are the results, in order; and the lines with a request id are those of the entries about
it. -/
theorem audit_log_reads_back (req : AuditReq) (entries : List Entry) :
    let log := (outputs (pluginStep N R) req entries).flatten
    sections Line.isHeader Line.isVariable log =
        (announcements R req entries).map (Announcement.shown N) ∧
      log.filter Line.isResult = entries.flatMap (Entry.results N R) ∧
      ∀ reqid, log.filter (fun line => line.reqid = reqid) =
        (answers (Entry.about? reqid) entries (outputs (pluginStep N R) req entries)).flatten := by
  intro log
  have hopens : ∀ piece ∈ outputs (pluginStep N R) req entries, Opens Line.isVariable piece :=
    forall_mem_outputs opens_pluginStep req entries
  refine ⟨?_, results_outputs N R req entries, fun reqid => reqid_outputs N R reqid req entries⟩
  rw [sections_flatten hopens, sections_outputs]

end Run

end StxSnmp.Audit
