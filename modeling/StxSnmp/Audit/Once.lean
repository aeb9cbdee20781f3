import StxSnmp.Audit.Plugin
import Mathlib.Data.List.Chain

/-!
# What the audit log misses

The calls made for one PDU are consecutive. The handler takes a PDU for a new transaction only
when both its transaction id and its request id differ from the recorded pair, so a PDU whose
manager chose the request id of the PDU before it is not logged.

## Main definitions

* `Served`: a PDU with the handler calls made for it
* `auditOnce`: what the log holds when every PDU is logged once, at its first call
* `FreshReqids`: no PDU repeats the request id of the one before it, and the first one's is
  not zero

## Main results

* `auditLogHandler_new`, `auditLogHandler_known`: a call logs the PDU or leaves the pair alone
* `run_new`, `outputs_ne_of_sameReqid`: the log of the calls made for one PDU
* `audit_once_iff`: the log is the one of `auditOnce` exactly when the request ids are fresh
-/

namespace StxSnmp.Audit

open Transducer

variable (N : NetSnmp)

/-- The lines that make a PDU known to the log. -/
def pduLines (pdu : Pdu) : List Line :=
  logPduHeader N pdu "" ++ logVarList N pdu

@[simp] theorem pduLines_ne_nil (pdu : Pdu) : pduLines N pdu ≠ [] := by
  simp [pduLines, logPduHeader]

theorem auditLogHandler_new {req : AuditReq} {call : Call}
    (ht : req.transid ≠ call.origPdu.transid) (hr : req.reqid ≠ call.origPdu.reqid) :
    auditLogHandler N req call = (⟨call.origPdu.transid, call.origPdu.reqid⟩,
      (pduLines N call.origPdu ++ logResults N call.origPdu.reqid call.requests, call.ret)) := by
  simp [auditLogHandler, ht, hr, pduLines]

theorem auditLogHandler_known {req : AuditReq} {call : Call}
    (h : req.transid = call.origPdu.transid ∨ req.reqid = call.origPdu.reqid) :
    auditLogHandler N req call =
      (req, (logResults N call.origPdu.reqid call.requests, call.ret)) := by
  rcases h with h | h <;> simp [auditLogHandler, h]

/-- What the next handlers leave of one call: its requests and its return value. -/
abbrev CallResult := List (Option ResultVar) × ℤ

/-- A PDU with the calls made for it: the first, and those that follow. -/
structure Served where
  pdu : Pdu
  first : CallResult
  later : List CallResult

/-- The calls made for one PDU. -/
def Served.calls (b : Served) : List Call :=
  (b.first :: b.later).map fun r => ⟨b.pdu, r.1, r.2⟩

/-- The handler's outputs on calls whose PDU is already known: their results only. -/
def resultOutputs (pdu : Pdu) (rs : List CallResult) : List (List Line × ℤ) :=
  rs.map fun r => (logResults N pdu.reqid r.1, r.2)

/-- The handler's outputs when the PDU is logged once, at its first call. -/
def Served.outputs (b : Served) : List (List Line × ℤ) :=
  (pduLines N b.pdu ++ logResults N b.pdu.reqid b.first.1, b.first.2) ::
    resultOutputs N b.pdu b.later

/-- The log when every PDU is logged once, at the first call made for it. -/
def auditOnce (bs : List Served) : List (List Line × ℤ) :=
  bs.flatMap (Served.outputs N)

/-- No PDU repeats the request id of the one before it, and the first one's is not zero. -/
def FreshReqids (bs : List Served) : Prop :=
  (0 :: bs.map fun b => b.pdu.reqid).IsChain (· ≠ ·)

instance (bs : List Served) : Decidable (FreshReqids bs) :=
  inferInstanceAs (Decidable ((0 :: bs.map fun b => b.pdu.reqid).IsChain (· ≠ ·)))

/-- Once the pair shares an id with a PDU, no call for that PDU changes it. -/
theorem run_known {req : AuditReq} {pdu : Pdu}
    (h : req.transid = pdu.transid ∨ req.reqid = pdu.reqid) (rs : List CallResult) :
    after (auditLogHandler N) req (rs.map fun r => ⟨pdu, r.1, r.2⟩) = req ∧
      outputs (auditLogHandler N) req (rs.map fun r => ⟨pdu, r.1, r.2⟩) =
        resultOutputs N pdu rs := by
  -- the pair stays, so the next call finds it as this one did
  induction rs with
  | nil => exact ⟨rfl, rfl⟩
  | cons r rs ih =>
    have hstep : auditLogHandler N req ⟨pdu, r.1, r.2⟩ = (req, (logResults N pdu.reqid r.1, r.2)) :=
      auditLogHandler_known N h
    simp only [List.map_cons, after_cons, outputs_cons, hstep]
    exact ⟨ih.1, congrArg _ ih.2⟩

/-- A PDU with two new ids is logged at its first call, and recorded. -/
theorem run_new {req : AuditReq} {b : Served} (ht : req.transid ≠ b.pdu.transid)
    (hr : req.reqid ≠ b.pdu.reqid) :
    after (auditLogHandler N) req b.calls = ⟨b.pdu.transid, b.pdu.reqid⟩ ∧
      outputs (auditLogHandler N) req b.calls = b.outputs N := by
  have hstep : auditLogHandler N req ⟨b.pdu, b.first.1, b.first.2⟩ = (⟨b.pdu.transid, b.pdu.reqid⟩,
      (pduLines N b.pdu ++ logResults N b.pdu.reqid b.first.1, b.first.2)) :=
    auditLogHandler_new N ht hr
  have hknown : (⟨b.pdu.transid, b.pdu.reqid⟩ : AuditReq).transid = b.pdu.transid := rfl
  obtain ⟨ha, ho⟩ := run_known N (Or.inl hknown) b.later
  simp only [Served.calls, List.map_cons, after_cons, outputs_cons, hstep]
  exact ⟨ha, congrArg _ ho⟩

/-- A PDU with the recorded request id escapes the log. -/
theorem outputs_ne_of_sameReqid {req : AuditReq} {b : Served} (hr : req.reqid = b.pdu.reqid) :
    outputs (auditLogHandler N) req b.calls ≠ b.outputs N := by
  have ho := (run_known N (Or.inr hr) (b.first :: b.later)).2
  rw [Served.calls, ho]
  simp [Served.outputs, resultOutputs]

@[simp] theorem length_calls (b : Served) : b.calls.length = b.later.length + 1 := by
  simp [Served.calls]

@[simp] theorem length_outputs_served (b : Served) :
    (b.outputs N).length = b.later.length + 1 := by
  simp [Served.outputs, resultOutputs]

/-- From any recorded pair, the log is the one of `auditOnce` exactly when the request ids
change from the recorded one on: a PDU that escapes the log is never made good later. -/
theorem outputs_eq_auditOnce_iff (bs : List Served) (req : AuditReq)
    (ht : (req.transid :: bs.map fun b => b.pdu.transid).Nodup) :
    outputs (auditLogHandler N) req (bs.flatMap Served.calls) = auditOnce N bs ↔
      (req.reqid :: bs.map fun b => b.pdu.reqid).IsChain (· ≠ ·) := by
  induction bs generalizing req with
  | nil => simp [auditOnce]
  | cons b bs ih =>
    simp only [List.map_cons, List.nodup_cons, List.mem_cons, not_or] at ht
    obtain ⟨⟨hb, -⟩, hnew, hrest⟩ := ht
    simp only [List.flatMap_cons, auditOnce, outputs_append, List.map_cons,
      List.isChain_cons_cons]
    by_cases hr : req.reqid = b.pdu.reqid
    · -- the PDU escapes, and its outputs are not made good by later ones
      refine iff_of_false ?_ (fun h => h.1 hr)
      intro h
      -- there is one output for each call, logged or not
      have hlen : (outputs (auditLogHandler N) req b.calls).length = (b.outputs N).length := by
        simp [length_outputs]
      exact outputs_ne_of_sameReqid N hr (List.append_inj h hlen).1
    · -- the PDU is recorded, and the next one is compared with it
      obtain ⟨ha, ho⟩ := run_new N hb hr
      have hnext := ih ⟨b.pdu.transid, b.pdu.reqid⟩ (List.nodup_cons.mpr ⟨hnew, hrest⟩)
      rw [ha, ho, List.append_cancel_left_eq]
      exact hnext.trans ⟨fun h => ⟨hr, h⟩, fun h => h.2⟩

/-- **Every PDU is logged once, at its first call, exactly when the request ids are fresh.** -/
theorem audit_once_iff (bs : List Served)
    (ht : (0 :: bs.map fun b => b.pdu.transid).Nodup) :
    outputs (auditLogHandler N) AuditReq.init (bs.flatMap Served.calls) = auditOnce N bs ↔
      FreshReqids bs :=
  outputs_eq_auditOnce_iff N bs AuditReq.init ht

/-- Names printed as numbers, addresses as dotted bytes. -/
def numericNet : NetSnmp where
  sprintReallocObjid name := (some (String.join (name.map fun n => "." ++ toString n)), true)
  inetNtop _ bytes := some (String.intercalate "." (bytes.map fun b => toString b.toNat))
  snmpPduType command := if command = 0xA0 then "GET" else "?"
  enableIPv6 := true

/-- A `GET` of one name from a local manager, answered with an integer. -/
def localGet (transid reqid : ℤ) (name : Oid) : Served where
  pdu := ⟨transid, reqid, 0xA0, 1, .udp, [127, 0, 0, 1], [name]⟩
  first := ([some ⟨name, 2⟩], 0)
  later := []

/-- Two managers that draw the same request id: the second PDU leaves no header. -/
theorem second_manager_not_audited :
    ([0, 11, 12] : List ℤ).Nodup ∧
      outputs (auditLogHandler numericNet) AuditReq.init
          ([localGet 11 7 [1, 3], localGet 12 7 [1, 4]].flatMap Served.calls) ≠
        auditOnce numericNet [localGet 11 7 [1, 3], localGet 12 7 [1, 4]] := by
  decide

/-- The handler entered twice more for a `GET`, once with nothing set yet and once with an error. -/
def enteredAgain (b : Served) : Served :=
  { b with
    later := [([none, some ⟨[1, 5], asnNull⟩], 0), ([some ⟨[1, 6], snmpNoSuchInstance⟩], 5)] }

/-- Two managers with request ids of their own, and three calls for each of their PDUs. -/
theorem audit_once_two_managers :
    outputs (auditLogHandler numericNet) AuditReq.init
        ([enteredAgain (localGet 11 7 [1, 3]), enteredAgain (localGet 12 8 [1, 4])].flatMap
          Served.calls) =
      auditOnce numericNet
        [enteredAgain (localGet 11 7 [1, 3]), enteredAgain (localGet 12 8 [1, 4])] :=
  (audit_once_iff numericNet _ (by decide)).mpr (by decide)

end StxSnmp.Audit
