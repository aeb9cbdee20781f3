import StxSnmp.Library.Lexicographic

/-!
# Object identifiers

An object identifier is its sequence of sub-identifiers; net-snmp compares them
lexicographically, a proper prefix being the smaller.

## Main definitions

* `Oid`: object identifiers
* `OidComparison`: net-snmp's three-way comparison
* `OidComparison.lexicographic`: one that compares the sub-identifiers in order
-/

namespace StxSnmp

/-- An object identifier: its sub-identifiers, in order. -/
abbrev Oid := List ℕ

/-- `snmp_oid_compare`, of which only what net-snmp documents is known: it is zero on equal
identifiers, and negative on a smaller and a larger one, a proper prefix being the smaller. -/
structure OidComparison where
  snmpOidCompare : Oid → Oid → ℤ
  eq_zero_iff : ∀ a b, snmpOidCompare a b = 0 ↔ a = b
  neg_iff : ∀ a b, snmpOidCompare a b < 0 ↔ a < b

attribute [simp] OidComparison.eq_zero_iff OidComparison.neg_iff

/-- The comparison of the sub-identifiers one by one. -/
def OidComparison.lexicographic : OidComparison where
  snmpOidCompare := Lexicographic.lexCompare
  eq_zero_iff _ _ := Lexicographic.lexCompare_eq_zero_iff
  neg_iff _ _ := Lexicographic.lexCompare_neg_iff

end StxSnmp
