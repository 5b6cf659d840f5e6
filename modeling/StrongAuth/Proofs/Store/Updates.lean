import StrongAuth.Proofs.Store.Operations
import StrongAuth.Samples

set_option autoImplicit false

namespace StrongAuth

namespace Authorisation

/-- The authorisation after updates in this order. The versions that they quote are beside them. -/
def applyAll (a : Authorisation) (writes : List (Int × Update)) : Authorisation :=
  writes.foldl (fun a w => a.apply w.2) a

theorem version_applyAll (a : Authorisation) (writes : List (Int × Update)) :
    (a.applyAll writes).version = a.version + writes.length := by
  induction writes generalizing a with
  | nil => exact (Int.add_zero _).symm
  | cons w writes ih =>
    have rest := ih (a.apply w.2)
    rw [apply_version] at rest
    refine rest.trans ?_
    simp only [List.length_cons]
    omega

theorem id_applyAll (a : Authorisation) (writes : List (Int × Update)) :
    (a.applyAll writes).id = a.id := by
  induction writes generalizing a with
  | nil => rfl
  | cons w writes ih => exact ih (a.apply w.2)

end Authorisation

namespace Store

namespace Operation

theorem enrol_getElem? {l : List Authorisation} {n : Nat} {a : Authorisation}
    (there : l[n]? = some a) (new : String) (op : Operation) :
    (op.enrol new l)[n]? = some (a.applyAll (op.updateOf? a.id).toList) := by
  cases op with
  | insertAuthorisation d =>
    have bound : n < l.length := (List.getElem?_eq_some_iff.mp there).1
    exact (List.getElem?_append_left bound).trans there
  | updateAuthorisation id version u =>
    simp only [enrol, List.getElem?_map, there, Option.map_some, updateOf?]
    by_cases same : id = a.id
    · simp [same, Authorisation.applyAll]
    · have other : ¬a.id = id := fun e => same e.symm
      simp [same, other, Authorisation.applyAll]
  | _ => exact there

/-- Only an insertion makes the list longer, and by one record. -/
theorem insertion_of_grown {l : List Authorisation} {n : Nat} (later : l.length ≤ n) (new : String)
    (op : Operation) (grown : ¬(op.enrol new l).length ≤ n) :
    n = l.length ∧ ∃ d, op = .insertAuthorisation d := by
  cases op with
  | insertAuthorisation d =>
    rw [enrol, List.length_append, List.length_singleton] at grown
    exact ⟨by omega, d, rfl⟩
  | updateAuthorisation id version u =>
    rw [enrol, List.length_map] at grown
    exact absurd later grown
  | _ => exact absurd later grown

end Operation

end Store

namespace Backend
open StrongAuth.Store

variable {b : Backend}

theorem updateOf?_accepted (h : b.IsIntact) {op : Operation} (accepted : (op.perform b).1.isOk = true)
    {id : String} {w : Int × Authorisation.Update} (update : op.updateOf? id = some w) :
    ∃ (n : Nat) (a : Authorisation), b.records[n]? = some a ∧ a.id = id ∧
      a.status.isTerminal = false ∧ a.version = w.1 := by
  cases op with
  | updateAuthorisation i version u =>
    simp only [Operation.updateOf?] at update
    split at update
    · next same =>
      cases update
      obtain ⟨reply, answered⟩ := exists_of_isOk accepted
      obtain ⟨written, updated, -⟩ := map_eq_ok answered
      obtain ⟨⟨n, a, there, here, free, -⟩, -⟩ := updateAuthorisation_ok h.sound
        (Prod.ext updated rfl)
      exact ⟨n, a, there, here.trans same, writeConflict_eq_none_iff.mp free⟩
    · cases update
  | _ => cases update

/-- The updates of an authorisation that are accepted make it what it becomes, and quote its versions
one after the other. -/
theorem record_performed (h : b.IsIntact) {n : Nat} {a : Authorisation}
    (there : b.records[n]? = some a) (ops : List Operation) :
    (performed b ops).records[n]? =
        some (a.applyAll ((accepted b ops).filterMap (Operation.updateOf? a.id))) ∧
      ((accepted b ops).filterMap (Operation.updateOf? a.id)).map (·.1) =
        (List.range ((accepted b ops).filterMap (Operation.updateOf? a.id)).length).map
          fun (k : Nat) => a.version + k := by
  induction ops generalizing b a with
  | nil => exact ⟨there, rfl⟩
  | cons op ops ih =>
    have step := (enrols_perform h.sound op).records
    rw [accepted_cons]
    split
    · next answered =>
      rw [if_pos answered] at step
      have after := op.enrol_getElem? there b.nextId
      rw [← step] at after
      obtain ⟨record, quoted⟩ := ih (isIntact_perform h op) after
      cases update : op.updateOf? a.id with
      | none =>
        rw [update] at record quoted
        rw [List.filterMap_cons_none update]
        exact ⟨record, quoted⟩
      | some w =>
        rw [update] at record quoted
        rw [List.filterMap_cons_some update]
        refine ⟨record, ?_⟩
        obtain ⟨m, a', there', same, -, version⟩ := updateOf?_accepted h answered update
        obtain rfl := h.sound.distinct.unique there' there same
        rw [there] at there'
        cases there'
        have next : (a.applyAll (some w).toList).version = a.version + 1 := rfl
        rw [next] at quoted
        rw [List.length_cons, List.range_succ_eq_map, List.map_cons, List.map_cons, List.map_map]
        refine List.cons_eq_cons.mpr ⟨by simp [version], quoted.trans ?_⟩
        refine List.map_congr_left fun k _ => ?_
        change a.version + 1 + (k : Int) = a.version + ((k + 1 : Nat) : Int)
        omega
    · next refused =>
      rw [if_neg refused] at step
      rw [← step] at there
      exact ih (isIntact_perform h op) there

theorem id_ne_of_later (h : b.IsIntact) (ops : List Operation) {n : Nat} {a : Authorisation}
    (later : b.records.length ≤ n) (there : (performed b ops).records[n]? = some a)
    {m : Nat} {x : Authorisation} (before : b.records[m]? = some x) : x.id ≠ a.id := by
  intro same
  have bound : m < b.records.length := (List.getElem?_eq_some_iff.mp before).1
  have kept := (record_performed h before ops).1
  have position := (isIntact_performed h ops).sound.distinct.unique kept there
    ((Authorisation.id_applyAll x _).trans same)
  omega

theorem updateOf?_of_unused (h : b.IsIntact) {op : Operation}
    (accepted : (op.perform b).1.isOk = true) {id : String}
    (unused : ∀ {m : Nat} {x : Authorisation}, b.records[m]? = some x → x.id ≠ id) :
    op.updateOf? id = none := by
  cases update : op.updateOf? id with
  | none => rfl
  | some w =>
    obtain ⟨m, x, before, same, -⟩ := updateOf?_accepted h accepted update
    exact absurd same (unused before)

theorem opened_of_record (h : b.IsIntact) (ops : List Operation) {n : Nat} {a : Authorisation}
    (later : b.records.length ≤ n) (there : (performed b ops).records[n]? = some a) :
    ∃ (b' : Backend) (ops' : List Operation) (d : Authorisation.Draft), b'.IsIntact ∧
      b'.records[n]? = some (.ofDraft a.id d) ∧ performed b' ops' = performed b ops ∧
      .insertAuthorisation d ∈ accepted b ops ∧
      (accepted b' ops').filterMap (Operation.updateOf? a.id) =
        (accepted b ops).filterMap (Operation.updateOf? a.id) := by
  induction ops generalizing b with
  | nil =>
    have bound : n < b.records.length := (List.getElem?_eq_some_iff.mp there).1
    omega
  | cons op ops ih =>
    have step := (enrols_perform h.sound op).records
    have intact := isIntact_perform h op
    rw [accepted_cons]
    split
    · next answered =>
      rw [if_pos answered] at step
      have unrelated := updateOf?_of_unused h answered (id_ne_of_later h (op :: ops) later there)
      rw [List.filterMap_cons_none unrelated]
      by_cases short : (op.perform b).2.records.length ≤ n
      · obtain ⟨b', ops', d, intact', opened, same, mem, updates⟩ := ih intact short there
        exact ⟨b', ops', d, intact', opened, same, List.mem_cons_of_mem _ mem, updates⟩
      · -- The list grew past the position, so this is the insertion.
        rw [step] at short
        obtain ⟨rfl, d, rfl⟩ := Operation.insertion_of_grown later b.nextId op short
        have opened := (congrArg (fun l => l[b.records.length]?) step).trans
          List.getElem?_concat_length
        have kept := (record_performed intact opened ops).1
        rw [← Option.some.inj (kept.symm.trans there)]
        refine ⟨_, ops, d, intact, ?_, rfl, List.mem_cons_self, rfl⟩
        rw [Authorisation.id_applyAll]
        exact opened
    · next refused =>
      rw [if_neg refused] at step
      rw [← step] at later
      exact ih intact later there

end Backend

namespace Store

/-- A new store without failures accepts an update of a stored authorisation if and only if the
authorisation is live, the quoted version is the stored one, and a status for the parent finds it.
What is stored is the draft with all accepted updates, one for each version. -/
theorem updates_applied_once (b : Backend) (new : b.isEmpty = true) (calm : b.isCalm = true)
    (ops : List Operation) (id : String) (a : Authorisation)
    (stored : Store.authorisation (performed b ops) id = .ok (some a)) :
    (∀ version u, (Operation.updateAuthorisation id version u).fits = true →
      ((Store.updateAuthorisation (performed b ops) id version u).1.isOk = true ↔
        a.status.isTerminal = false ∧ a.version = version ∧
          ∀ st, u.parentStatus = some st → (performed b ops).hasParent a.parentId st = true)) ∧
    (∃ d, .insertAuthorisation d ∈ accepted b ops ∧
      a = (Authorisation.ofDraft id d).applyAll
        ((accepted b ops).filterMap (Operation.updateOf? id))) ∧
    a.version = ((accepted b ops).filterMap (Operation.updateOf? id)).length ∧
    (((accepted b ops).filterMap (Operation.updateOf? id)).map (·.1)).Nodup := by
  have empty := Backend.isIntact_of_isEmpty new
  have intact := Backend.isIntact_performed empty ops
  have quiet := Backend.isCalm_performed empty calm ops
  obtain ⟨n, there, rfl⟩ := Backend.authorisation_ok intact.sound stored
  have none : b.records.length ≤ n := by
    rw [Backend.records_of_isFresh (Backend.isFresh_of_isEmpty new)]
    exact Nat.zero_le n
  obtain ⟨b', ops', d, intact', opened, same, mem, updates⟩ :=
    Backend.opened_of_record empty ops none there
  obtain ⟨record, quoted⟩ := Backend.record_performed intact' opened ops'
  rw [same, there] at record
  have named : (Authorisation.ofDraft a.id d).id = a.id := rfl
  rw [named, updates] at record quoted
  have folded := Option.some.inj record
  refine ⟨fun version u fits => ?_, ⟨d, mem, folded⟩, ?_, ?_⟩
  · rw [Backend.updateAuthorisation_isOk intact quiet stored version fits, Bool.and_eq_true,
      Option.isNone_iff_eq_none, writeConflict_eq_none_iff, and_assoc, Option.all_eq_true]
  · refine (congrArg Authorisation.version folded).trans ?_
    rw [Authorisation.version_applyAll]
    exact Int.zero_add _
  · rw [quoted, List.Nodup, List.pairwise_map]
    exact List.nodup_range.imp fun different same => different (by omega)

theorem bookkeeping_applied_once :
    (Backend.memory {}).isEmpty = true ∧ (Backend.memory {}).isCalm = true ∧
      ∃ a, Store.authorisation (performed (Backend.memory {}) Samples.bookkeeping) "auth1" =
          .ok (some a) ∧ a.version = 2 ∧
        a.version = ((accepted (Backend.memory {}) Samples.bookkeeping).filterMap
          (Operation.updateOf? "auth1")).length :=
  ⟨rfl, rfl, _, rfl, rfl,
    (updates_applied_once (.memory {}) rfl rfl Samples.bookkeeping "auth1" _ rfl).2.2.1⟩

end Store

end StrongAuth
