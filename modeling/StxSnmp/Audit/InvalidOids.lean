import StxSnmp.Audit.Plugin

/-!
# Names outside every subtree

Before a request is served the plugin is called back with the outcome of the access check. It logs
a refused request, and of a `GETNEXT` or `GETBULK` the names that no registered subtree answers,
which no handler will ever see.

## Main definitions

* `Registry`: the subtrees of the agent, as the plugin finds them
* `logInvalidOidTrees`: the lines of a request with such names
* `auditCallbackAcmCheckInitial`: the callback
* `Invalid`: a name for which only placeholders are registered
* `shownInvalid`, `invalidLines`: what the log is to show of such names

## Main results

* `skipPlaceholders_eq_nil_iff`: the search along the chain fails exactly for an invalid name
* `logInvalidOidTrees_eq`: the names of the request once, and then a line for each invalid one
-/

namespace StxSnmp.Audit

/-- The ends of the range of a registered subtree. -/
structure Subtree where
  startA : Oid
  endA : Oid
  deriving DecidableEq, Repr

/-- A PDU with the name of its context. -/
structure ContextPdu extends Pdu where
  contextName : String
  deriving DecidableEq, Repr

/-- What the plugin uses of the agent's registry. -/
structure Registry where
  /-- `netsnmp_subtree_find` in a context: the subtree found and those after it in its chain; the
  empty chain is the null pointer. -/
  subtreeFind : Oid → String → List Subtree
  /-- `netsnmp_oid_find_prefix` -/
  oidFindPrefix : Oid → Oid → ℤ

variable (N : NetSnmp) (R : Registry)

/-! ## The callback -/

/-- The loop over the chain of a subtree: what is left at the first one whose ends share a
prefix. -/
def skipPlaceholders : List Subtree → List Subtree
  | [] => []
  | tp :: next =>
    if R.oidFindPrefix tp.startA tp.endA < 1 then skipPlaceholders next else tp :: next

/-- The line of a name that no subtree answers. -/
def statusLine (pdu : Pdu) (name : Oid) : Line :=
  .result pdu.reqid (fmtoid N name).1 (fmtoid N name).2 (getResultError snmpEndOfMibView)

/-- The loop over the varbinds; `firstTime` until the first line is written. -/
def logInvalidFrom (pdu : ContextPdu) : Bool → List Oid → List Line
  | _, [] => []
  | firstTime, var :: vars =>
    match skipPlaceholders R (R.subtreeFind var pdu.contextName) with
    | [] =>
      -- the header and all the names come before the first status
      (if firstTime then
        .header (logSessionAddresses N pdu.toPdu) pdu.reqid (N.snmpPduType pdu.command)
          (getVersion pdu.version) "" :: logVarList N pdu.toPdu
      else []) ++ statusLine N pdu.toPdu var :: logInvalidFrom pdu false vars
    | _ :: _ => logInvalidFrom pdu firstTime vars

def logInvalidOidTrees (pdu : ContextPdu) : List Line :=
  logInvalidFrom N R pdu true pdu.variableList

def vacmSuccess : ℤ := 0

def getAuthError (errorcode : ℤ) : String :=
  getStrFromEnum errorcode
    [(vacmSuccess, "Success"), (1, "InvalidCommunityName"), (2, "NoGroup"), (3, "NoAccess"),
      (4, "NoViewAccess"), (5, "NotInView"), (6, "NoSuchContext"), (7, "SubtreeUnknown")]
    (some "unknown err")

def snmpMsgGetNext : ℤ := 0xA1
def snmpMsgGetBulk : ℤ := 0xA5

/-- `audit_callback_acm_check_initial`, for the error code of the access check. -/
def auditCallbackAcmCheckInitial (errorcode : ℤ) (pdu : ContextPdu) : List Line :=
  if errorcode ≠ vacmSuccess then
    .header (logSessionAddresses N pdu.toPdu) pdu.reqid (N.snmpPduType pdu.command)
      (getVersion pdu.version) (" status:" ++ getAuthError errorcode) :: logVarList N pdu.toPdu
  else if pdu.command = snmpMsgGetBulk ∨ pdu.command = snmpMsgGetNext then
    logInvalidOidTrees N R pdu
  else []

/-! ## What is logged -/

/-- No subtree is found for the name, or every one from there to the end of the chain is a
placeholder, whose ends have no prefix in common. -/
def Invalid (contextName : String) (name : Oid) : Prop :=
  R.subtreeFind name contextName = [] ∨
    ∀ tp ∈ R.subtreeFind name contextName, R.oidFindPrefix tp.startA tp.endA < 1

instance (contextName : String) (name : Oid) : Decidable (Invalid R contextName name) :=
  inferInstanceAs (Decidable (_ ∨ _))

variable {N R}

/-- The search along a chain fails exactly when it meets placeholders only. -/
theorem skipPlaceholders_eq_nil_iff {chain : List Subtree} :
    skipPlaceholders R chain = [] ↔ ∀ tp ∈ chain, R.oidFindPrefix tp.startA tp.endA < 1 := by
  induction chain with
  | nil => simp [skipPlaceholders]
  | cons tp next ih =>
    rw [skipPlaceholders, List.forall_mem_cons]
    split
    · next hplaceholder => rw [ih, and_iff_right hplaceholder]
    · next hfound => exact iff_of_false (List.cons_ne_nil tp next) fun h => hfound h.1

/-- The search for a name fails exactly when the name is invalid. -/
theorem invalid_iff {contextName : String} {name : Oid} :
    Invalid R contextName name ↔
      skipPlaceholders R (R.subtreeFind name contextName) = [] := by
  rw [skipPlaceholders_eq_nil_iff, Invalid, or_iff_right_of_imp]
  intro hnone
  rw [hnone]
  exact List.forall_mem_nil _

/-- A valid name leaves no line. -/
theorem logInvalidFrom_valid {pdu : ContextPdu} {var : Oid} (h : ¬ Invalid R pdu.contextName var)
    (firstTime : Bool) (vars : List Oid) :
    logInvalidFrom N R pdu firstTime (var :: vars) = logInvalidFrom N R pdu firstTime vars := by
  rw [invalid_iff] at h
  obtain ⟨tp, next, hfound⟩ := List.exists_cons_of_ne_nil h
  rw [logInvalidFrom, hfound]

/-- An invalid name, as it is to be shown. -/
def shownInvalid (N : NetSnmp) (reqid : ℤ) (name : Oid) : Line :=
  .result reqid (shownName N name).1 (shownName N name).2 "EndOfMIBView"

theorem statusLine_eq (pdu : Pdu) (name : Oid) :
    statusLine N pdu name = shownInvalid N pdu.reqid name := by
  rw [statusLine, fmtoid_eq, shownInvalid]
  rfl

/-- Once a line is written, each invalid name adds its own. -/
theorem logInvalidFrom_false (pdu : ContextPdu) (vars : List Oid) :
    logInvalidFrom N R pdu false vars =
      (vars.filter fun var => Invalid R pdu.contextName var).map (shownInvalid N pdu.reqid) := by
  induction vars with
  | nil => rfl
  | cons var vars ih =>
    by_cases hinvalid : Invalid R pdu.contextName var
    · rw [List.filter_cons_of_pos (by simpa using hinvalid), List.map_cons, ← ih, logInvalidFrom,
        invalid_iff.mp hinvalid, ← statusLine_eq]
      rfl
    · rw [logInvalidFrom_valid hinvalid, ih, List.filter_cons_of_neg (by simpa using hinvalid)]

/-- The lines of a request with invalid names: the header, all the names of the request, and then
each invalid name in order. -/
def invalidLines (N : NetSnmp) (pdu : Pdu) (invalid : List Oid) : List Line :=
  shownHeader N pdu "" ::
    (shownNames N pdu.reqid pdu.variableList ++ invalid.map (shownInvalid N pdu.reqid))

/-- Before the first line, the first invalid name writes what is common to all, whatever valid names
came before it. -/
theorem logInvalidFrom_true (pdu : ContextPdu) (vars : List Oid) :
    logInvalidFrom N R pdu true vars =
      let invalid := vars.filter fun var => Invalid R pdu.contextName var
      if invalid = [] then [] else invalidLines N pdu.toPdu invalid := by
  induction vars with
  | nil => rfl
  | cons var vars ih =>
    by_cases hinvalid : Invalid R pdu.contextName var
    · rw [List.filter_cons_of_pos (by simpa using hinvalid), logInvalidFrom,
        invalid_iff.mp hinvalid]
      simp only [logInvalidFrom_false, if_neg (List.cons_ne_nil _ _), if_true, logVarList_eq,
        logSessionAddresses_eq, getVersion_eq, statusLine_eq, invalidLines, shownHeader,
        List.map_cons, List.cons_append]
    · rw [logInvalidFrom_valid hinvalid, List.filter_cons_of_neg (by simpa using hinvalid)]
      exact ih

/-- **Invalid names are logged completely and once**: a request with none leaves no line; any other
leaves the header, its names, and then a line for each invalid one, in order. The callback logs so
what passes the access check, if it is a `GETNEXT` or a `GETBULK`. -/
theorem logInvalidOidTrees_eq (N : NetSnmp) (R : Registry) (pdu : ContextPdu) :
    let invalid := pdu.variableList.filter fun var => Invalid R pdu.contextName var
    let lines := if invalid = [] then [] else invalidLines N pdu.toPdu invalid
    logInvalidOidTrees N R pdu = lines ∧
      auditCallbackAcmCheckInitial N R vacmSuccess pdu =
        if pdu.command = snmpMsgGetBulk ∨ pdu.command = snmpMsgGetNext then lines else [] := by
  intro invalid lines
  have hlines : logInvalidOidTrees N R pdu = lines := logInvalidFrom_true pdu pdu.variableList
  refine ⟨hlines, ?_⟩
  rw [auditCallbackAcmCheckInitial, if_neg (not_not.mpr rfl), hlines]

end StxSnmp.Audit
