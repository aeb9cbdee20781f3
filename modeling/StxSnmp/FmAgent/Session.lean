import Mathlib.Data.Int.Basic
import Mathlib.Data.List.Basic

/-!
# The database session

`snmpAgentPlugin.c` keeps one session handle for both tables. A successful creation stores a
fresh handle, a failed one leaves the variable as it was, and a renewal destroys the session
before it creates the next.

## Main definitions

* `FmCall`: the calls to the FM library that take or give a handle
* `Plugin`: the handle, with the calls made so far
* `renewAlarmSession`, `initSnmpAgentPlugin`, `deinitSnmpAgentPlugin`
-/

namespace StxSnmp.FmAgent

/-- The calls to the FM library, with the handles passed and, for a creation, the one stored. -/
inductive FmCall where
  | createSession (stored : Option ℕ)
  | destroySession (handle : Option ℕ)
  | getAllAlarms (handle : Option ℕ)
  | getAllEventLogs (handle : Option ℕ)
  deriving DecidableEq, Repr

/-- The static `alm_handle`, null at the start, the handle the library gives next, and the calls
made so far. -/
structure Plugin where
  almHandle : Option ℕ
  nextHandle : ℕ
  calls : List FmCall
  deriving DecidableEq, Repr

namespace Plugin

def init : Plugin := ⟨none, 0, []⟩

def call (p : Plugin) (c : FmCall) : Plugin :=
  { p with calls := p.calls ++ [c] }

@[simp] theorem call_calls (p : Plugin) (c : FmCall) : (p.call c).calls = p.calls ++ [c] := rfl

end Plugin

def fmSnmpUtilDestroySession (handle : Option ℕ) (p : Plugin) : Plugin :=
  p.call (.destroySession handle)

/-- `fm_snmp_util_create_session(&alm_handle, NULL)`; `created` is its result. -/
def fmSnmpUtilCreateSession (created : Bool) (p : Plugin) : Plugin :=
  if created then
    { p.call (.createSession (some p.nextHandle)) with
      almHandle := some p.nextHandle, nextHandle := p.nextHandle + 1 }
  else p.call (.createSession none)

def getAlarmSession (p : Plugin) : Option ℕ := p.almHandle

def renewAlarmSession (created : Bool) (p : Plugin) : Plugin :=
  fmSnmpUtilCreateSession created (fmSnmpUtilDestroySession p.almHandle p)

/-- `none` when the session cannot be created and the agent exits. -/
def initSnmpAgentPlugin (created : Bool) : Option Plugin :=
  if created then some (fmSnmpUtilCreateSession true Plugin.init) else none

def deinitSnmpAgentPlugin (p : Plugin) : Plugin :=
  fmSnmpUtilDestroySession p.almHandle p

end StxSnmp.FmAgent
