import StxSnmp.Snmp.Oid
import StxSnmp.Library.Transducer

/-!
# The audit plugin

`snmpAuditPlugin.c` logs the requests the agent serves. Its handler is called once or more for
a PDU: a static pair remembers the last PDU it logged, the header and the variables of a new
one are logged, the next handlers of the chain are called, and their results are logged.

## Main definitions

* `Line`: the lines of the audit log, by the arguments they print
* `NetSnmp`: the net-snmp functions the plugin formats with
* `logPduHeader`, `logVarList`, `logResults`: the lines of a PDU and of its results
* `auditLogHandler`: a call of the handler, on the static pair
* `shownHeader`, `shownNames`, `shownResults`: what the lines of a PDU and of its results are to
  show

## Main results

* `logPduHeader_eq`, `logVarList_eq`, `logResults_eq`: they show it
-/

namespace StxSnmp.Audit

/-- The lines written to the log, by what they print after the audit tag. -/
inductive Line where
  | header (addresses : String) (reqid : ℤ) (msgType version status : String)
  | variable (reqid : ℤ) (oid mark : String)
  | result (reqid : ℤ) (oid mark status : String)
  deriving DecidableEq, Repr

/-- The transport domains the plugin tells apart. -/
inductive TDomain where
  | udp | tcp | udpIPv6 | tcpIPv6 | other
  deriving DecidableEq, Repr

inductive AddressFamily where
  | inet | inet6
  deriving DecidableEq, Repr

/-- The fields of a `netsnmp_pdu` the plugin reads. -/
structure Pdu where
  transid : ℤ
  reqid : ℤ
  command : ℤ
  version : ℤ
  tDomain : TDomain
  remoteAddr : List UInt8
  variableList : List Oid
  deriving DecidableEq, Repr

/-- A result varbind of a request: its name and its type. -/
structure ResultVar where
  name : Oid
  type : ℤ
  deriving DecidableEq, Repr

/-- What the plugin uses of net-snmp and of the C library to format a line. -/
structure NetSnmp where
  /-- `sprint_realloc_objid`: the buffer, if any, and whether nothing was cut. -/
  sprintReallocObjid : Oid → Option String × Bool
  inetNtop : AddressFamily → List UInt8 → Option String
  snmpPduType : ℤ → String
  /-- `NETSNMP_ENABLE_IPV6` -/
  enableIPv6 : Bool

def logBufStr : ℕ := 256

variable (N : NetSnmp)

/-- Session address, cut to the caller's buffer. -/
def fmtaddr (pre : String) (af : AddressFamily) (remoteAddr : List UInt8) : String :=
  let remoteAddrStr := (N.inetNtop af remoteAddr).getD "UNKNOWN"
  String.ofList (("transport:" ++ pre ++ " remote:" ++ remoteAddrStr).toList.take (logBufStr - 1))

def logSessionAddresses (pdu : Pdu) : String :=
  match pdu.tDomain, N.enableIPv6 with
  | .udp, _ => fmtaddr N "udp" .inet pdu.remoteAddr
  | .tcp, _ => fmtaddr N "tcp" .inet pdu.remoteAddr
  | .udpIPv6, true => fmtaddr N "udpv6" .inet6 pdu.remoteAddr
  | .tcpIPv6, true => fmtaddr N "tcpv6" .inet6 pdu.remoteAddr
  | _, _ => "IP FMT ERROR"

/-- The printed name, and the mark of a cut one. -/
def fmtoid (name : Oid) : String × String :=
  let (buf, noOverflow) := N.sprintReallocObjid name
  -- a name that could not be printed at all is marked too
  (buf.getD "INVALID", if buf.isSome && noOverflow then "" else " [TRUNCATED]")

def getVersion (version : ℤ) : String :=
  if version = 0 then "v1" else if version = 1 then "v2c" else if version = 3 then "v3" else "error"

/-- The first entry of `table` for `enumval`, or `defval`. -/
def getStrFromEnum (enumval : ℤ) (table : List (ℤ × String)) (defval : Option String) : String :=
  match table.find? (fun entry => entry.1 = enumval) with
  | some entry => entry.2
  | none => defval.getD "unknown"

def asnNull : ℤ := 0x05
def snmpNoSuchObject : ℤ := 0x80
def snmpNoSuchInstance : ℤ := 0x81
def snmpEndOfMibView : ℤ := 0x82

def getResultError (errorcode : ℤ) : String :=
  getStrFromEnum errorcode
    [(0, "pass"), (snmpNoSuchObject, "NoSuchObject"), (snmpNoSuchInstance, "NoSuchInstance"),
      (snmpEndOfMibView, "EndOfMIBView")]
    (some "pass")

/-- The names of the varbinds of a PDU. -/
def logVarList (pdu : Pdu) : List Line :=
  pdu.variableList.map fun name => .variable pdu.reqid (fmtoid N name).1 (fmtoid N name).2

def logPduHeader (pdu : Pdu) (status : String) : List Line :=
  [.header (logSessionAddresses N pdu) pdu.reqid (N.snmpPduType pdu.command)
    (getVersion pdu.version) status]

/-- The results of the processing handlers; a request without varbind, and one whose type is
still `ASN_NULL`, is passed over. -/
def logResults (reqid : ℤ) (requests : List (Option ResultVar)) : List Line :=
  requests.filterMap fun
    | none => none
    | some var =>
      if var.type ≠ asnNull then
        some (.result reqid (fmtoid N var.name).1 (fmtoid N var.name).2 (getResultError var.type))
      else none

/-- The first handler call of a transaction, as last recorded. -/
structure AuditReq where
  transid : ℤ
  reqid : ℤ
  deriving DecidableEq, Repr

/-- The static `req` before the first call. -/
def AuditReq.init : AuditReq := ⟨0, 0⟩

/-- A call of the handler: the PDU it is made for, and the requests and the return value as
`netsnmp_call_next_handler` leaves them. -/
structure Call where
  origPdu : Pdu
  requests : List (Option ResultVar)
  ret : ℤ
  deriving DecidableEq, Repr

/-- `audit_log_handler`: the static pair after the call, the lines it logs and its result. -/
def auditLogHandler (req : AuditReq) (call : Call) : AuditReq × (List Line × ℤ) :=
  if req.transid ≠ call.origPdu.transid ∧ req.reqid ≠ call.origPdu.reqid then
    -- new transaction
    (⟨call.origPdu.transid, call.origPdu.reqid⟩,
      (logPduHeader N call.origPdu "" ++ logVarList N call.origPdu ++
        logResults N call.origPdu.reqid call.requests, call.ret))
  else
    -- one id in common with the recorded pair makes it known
    (req, (logResults N call.origPdu.reqid call.requests, call.ret))

/-! ## What the lines are to show -/

/-- A name as net-snmp prints it, with a mark if it was cut; a word of its own, and the mark, for a
name that could not be printed. -/
def shownName (name : Oid) : String × String :=
  match N.sprintReallocObjid name with
  | (some buf, true) => (buf, "")
  | (some buf, false) => (buf, " [TRUNCATED]")
  | (none, _) => ("INVALID", " [TRUNCATED]")

/-- A result is an error of SNMPv2 by its type, or a value. -/
def shownStatus (type : ℤ) : String :=
  if type = snmpNoSuchObject then "NoSuchObject"
  else if type = snmpNoSuchInstance then "NoSuchInstance"
  else if type = snmpEndOfMibView then "EndOfMIBView"
  else "pass"

/-- The transport of a PDU, if the plugin knows it, and the family of its addresses. -/
def transport : TDomain → Option (String × AddressFamily)
  | .udp => some ("udp", .inet)
  | .tcp => some ("tcp", .inet)
  | .udpIPv6 => if N.enableIPv6 then some ("udpv6", .inet6) else none
  | .tcpIPv6 => if N.enableIPv6 then some ("tcpv6", .inet6) else none
  | .other => none

/-- The transport and the remote address, in 255 characters at most. -/
def shownAddresses (pdu : Pdu) : String :=
  match transport N pdu.tDomain with
  | some (name, family) =>
    let address := (N.inetNtop family pdu.remoteAddr).getD "UNKNOWN"
    String.ofList (("transport:" ++ name ++ " remote:" ++ address).toList.take 255)
  | none => "IP FMT ERROR"

def shownVersion : ℤ → String
  | 0 => "v1"
  | 1 => "v2c"
  | 3 => "v3"
  | _ => "error"

/-- The header of a PDU, and the status beside it. -/
def shownHeader (pdu : Pdu) (status : String) : Line :=
  .header (shownAddresses N pdu) pdu.reqid (N.snmpPduType pdu.command) (shownVersion pdu.version)
    status

def shownNames (reqid : ℤ) (names : List Oid) : List Line :=
  names.map fun name => .variable reqid (shownName N name).1 (shownName N name).2

/-- The varbinds a handler has set, each with its name and its status. -/
def shownResults (reqid : ℤ) (requests : List (Option ResultVar)) : List Line :=
  ((requests.filterMap id).filter fun var => var.type ≠ asnNull).map fun var =>
    .result reqid (shownName N var.name).1 (shownName N var.name).2 (shownStatus var.type)

theorem fmtoid_eq (name : Oid) : fmtoid N name = shownName N name := by
  rw [fmtoid, shownName]
  rcases N.sprintReallocObjid name with ⟨_ | buf, _ | _⟩ <;> rfl

theorem getResultError_eq (type : ℤ) : getResultError type = shownStatus type := by
  rw [getResultError, getStrFromEnum, shownStatus]
  split_ifs with hobject hinstance hview
  · rw [hobject]
    rfl
  · rw [hinstance]
    rfl
  · rw [hview]
    rfl
  · -- what is no error passes, whether the table has it or not
    by_cases hpass : type = 0
    · rw [hpass]
      rfl
    · simp [Ne.symm hpass, Ne.symm hobject, Ne.symm hinstance, Ne.symm hview]

theorem logSessionAddresses_eq (pdu : Pdu) : logSessionAddresses N pdu = shownAddresses N pdu := by
  rw [logSessionAddresses, shownAddresses]
  cases pdu.tDomain <;> cases hipv6 : N.enableIPv6 <;> simp [transport, fmtaddr, logBufStr, hipv6]

theorem getVersion_eq (version : ℤ) : getVersion version = shownVersion version := by
  rw [getVersion]
  split_ifs with hv1 hv2c hv3
  · rw [hv1]
    rfl
  · rw [hv2c]
    rfl
  · rw [hv3]
    rfl
  · rw [shownVersion] <;> assumption

theorem logPduHeader_eq (pdu : Pdu) (status : String) :
    logPduHeader N pdu status = [shownHeader N pdu status] := by
  rw [logPduHeader, shownHeader, logSessionAddresses_eq, getVersion_eq]

theorem logVarList_eq (pdu : Pdu) : logVarList N pdu = shownNames N pdu.reqid pdu.variableList := by
  simp only [logVarList, shownNames, fmtoid_eq]

theorem logResults_eq (reqid : ℤ) (requests : List (Option ResultVar)) :
    logResults N reqid requests = shownResults N reqid requests := by
  induction requests with
  | nil => rfl
  | cons request requests ih =>
    rw [logResults, shownResults] at ih ⊢
    cases request with
    | none => simpa using ih
    | some var =>
      by_cases hnull : var.type = asnNull
      · simpa [hnull] using ih
      · simpa [hnull, fmtoid_eq, getResultError_eq] using ih

end StxSnmp.Audit
