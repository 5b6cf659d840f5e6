import StrongAuth.Text.Blank

set_option autoImplicit false

namespace StrongAuth

structure Psu where
  id : Option String := none
  idType : Option String := none
  corporateId : Option String := none
  corporateIdType : Option String := none
  deriving DecidableEq, Repr

namespace Psu

def anonymous : Psu := {}

def named (id : String) : Psu := { id := some id }

/-- A PSU without an id, or with a blank one. A corporate id alone identifies nobody. -/
def isEmpty (p : Psu) : Bool := !Text.isGiven p.id

/-- The same person: ids and corporate ids agree, and there is an id. -/
def isSame (p q : Psu) : Bool :=
  !p.isEmpty && p.id == q.id && p.corporateId == q.corporateId

def text (p : Psu) : String :=
  match p.id, p.corporateId with
  | some id, some corporateId => s!"{id}@{corporateId}"
  | some id, none => id
  | none, _ => "<anonymous PSU>"

theorem isEmpty_eq_of_ids_eq {p q : Psu} (h : p.id = q.id) : p.isEmpty = q.isEmpty := by
  simp [isEmpty, h]

theorem isSame_iff (p q : Psu) :
    p.isSame q = true ↔ p.isEmpty = false ∧ p.id = q.id ∧ p.corporateId = q.corporateId := by
  simp [isSame, and_assoc]

theorem isSame_comm (p q : Psu) : p.isSame q = q.isSame p := by
  rw [Bool.eq_iff_iff, isSame_iff, isSame_iff]
  constructor
  · rintro ⟨he, hi, hc⟩
    exact ⟨isEmpty_eq_of_ids_eq hi ▸ he, hi.symm, hc.symm⟩
  · rintro ⟨he, hi, hc⟩
    exact ⟨isEmpty_eq_of_ids_eq hi ▸ he, hi.symm, hc.symm⟩

end Psu

end StrongAuth
