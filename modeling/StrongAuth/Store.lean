import StrongAuth.Parent
import StrongAuth.Store.Error

set_option autoImplicit false

/-!
# What the engine asks of a store

Reads leave the store as it is. A write answers with the record as it is stored afterwards. An
update of an authorisation is all or nothing: the authorisation, the status that follows from the
progress of its parent, and a status that the bank reported for the parent change together. It is
refused when the authorisation is terminal or when the quoted version is not the stored one.
-/
namespace StrongAuth

/-- Where the ids of new authorisations come from. No id is drawn while it is in use. -/
structure IdSource where
  draw : List String → String
  fresh : ∀ used, draw used ∉ used

namespace IdSource

/-- Counts the ids in use. Should that give one of them, a text is drawn that is longer than each. -/
def numbered : IdSource where
  draw used :=
    let id := "auth" ++ toString (used.length + 1)
    if id ∈ used then "auth" ++ String.join used else id
  fresh used := by
    simp only
    split
    · intro taken
      have part : ("auth" ++ String.join used).toList.Sublist (used.map String.toList).flatten :=
        List.sublist_flatten_of_mem (List.mem_map_of_mem taken)
      have longer := part.length_le
      rw [String.toList_append, String.toList_join, List.flatMap_def, List.length_append] at longer
      exact absurd longer (by simp)
    · assumption

end IdSource

class Store (σ : Type) where
  authorisation : σ → String → Except StoreError (Option Authorisation)
  /-- All authorisations of one parent and purpose, oldest first. -/
  authorisationsOf : σ → String → Purpose → Except StoreError (List Authorisation)
  insertAuthorisation : σ → Authorisation.Draft → Except StoreError Authorisation × σ
  updateAuthorisation :
    σ → String → Int → Authorisation.Update → Except StoreError Authorisation × σ
  consent : σ → String → Except StoreError (Option Consent)
  insertConsent : σ → Consent.Draft → Except StoreError Consent × σ
  setConsentStatus : σ → String → Consent.Status → Except StoreError Consent × σ
  payment : σ → String → Except StoreError (Option Payment)
  insertPayment : σ → Payment → Except StoreError Payment × σ
  /-- Keeps the order of a payment beside its payload. -/
  saveOrder : σ → String → Order → Except StoreError Payment × σ
  setPaymentStatus : σ → String → Payment.Status → Except StoreError Payment × σ

namespace Store

def isSibling (parentId : String) (purpose : Purpose) (a : Authorisation) : Bool :=
  a.parentId == parentId && a.purpose == purpose

def writeConflict (a : Authorisation) (version : Int) : Option StoreError :=
  if a.status.isTerminal then some (.terminal a.id a.status)
  else if a.version = version then none
  else some (.stale a.id version)

end Store

end StrongAuth
