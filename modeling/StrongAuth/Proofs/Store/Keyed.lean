import StrongAuth.Store

set_option autoImplicit false

namespace StrongAuth.Store

section Keyed
variable {α : Type} (key : α → String) (f : α → α)

/-- A lookup after a rewrite finds the same record, rewritten if the key was the right one. -/
theorem find?_rewritten (keeps : ∀ a, key (f a) = key a) (l : List α) (id i : String) :
    ((l.map fun a => if key a == id then f a else a).find? fun a => key a == i) =
      (l.find? fun a => key a == i).map fun a => if i = id then f a else a := by
  induction l with
  | nil => rfl
  | cons a l ih =>
    have same : key (if key a == id then f a else a) = key a := by
      split
      · exact keeps a
      · rfl
    simp only [List.map_cons, List.find?_cons, same]
    by_cases found : key a = i
    · simp [found]
    · simp only [beq_eq_false_iff_ne.mpr found]
      exact ih

theorem rewritten_eq_self (l : List α) (id : String) (same : ∀ a ∈ l, key a = id → f a = a) :
    (l.map fun a => if key a == id then f a else a) = l := by
  refine (List.map_congr_left fun a ha => ?_).trans (List.map_id l)
  split
  · next here => exact same a ha (eq_of_beq here)
  · rfl

theorem rewritten_of_absent {l : List α} {id : String}
    (absent : (l.find? fun a => key a == id) = none) :
    (l.map fun a => if key a == id then f a else a) = l :=
  rewritten_eq_self key f l id fun a ha here =>
    absurd here (by simpa using List.find?_eq_none.mp absent a ha)

theorem rewritten_eq_set {l : List α} {n : Nat} {a : α} (there : l[n]? = some a)
    (only : ∀ m b, l[m]? = some b → key b = key a → m = n) :
    (l.map fun b => if key b == key a then f b else b) = l.set n (f a) := by
  apply List.ext_getElem?
  intro m
  rw [List.getElem?_map, List.getElem?_set]
  by_cases position : n = m
  · subst position
    have bound : n < l.length := (List.getElem?_eq_some_iff.mp there).1
    rw [there, if_pos rfl, if_pos bound]
    simp
  · rw [if_neg position]
    cases found : l[m]? with
    | none => rfl
    | some b =>
      have other : key b ≠ key a := fun e => position (only m b found e).symm
      simp [other]

theorem position_of_find? {l : List α} {id : String} {a : α}
    (h : (l.find? fun a => key a == id) = some a) : ∃ n : Nat, l[n]? = some a ∧ key a = id := by
  have same : key a = id := by simpa using List.find?_some h
  obtain ⟨n, hn⟩ := List.getElem?_of_mem (List.mem_of_find?_eq_some h)
  exact ⟨n, hn, same⟩

theorem find?_of_position {l : List α} {n : Nat} {a : α} (there : l[n]? = some a)
    (only : ∀ m b, l[m]? = some b → key b = key a → m = n) :
    (l.find? fun b => key b == key a) = some a := by
  cases found : l.find? fun b => key b == key a with
  | none =>
    have missing := List.find?_eq_none.mp found a (List.mem_of_getElem? there)
    simp at missing
  | some b =>
    obtain ⟨m, position, same⟩ := position_of_find? key found
    rw [only m b position same, there] at position
    exact position.symm

theorem nodup_map_of_unique {l : List α}
    (unique : ∀ (m n : Nat) a b, l[m]? = some a → l[n]? = some b → key a = key b → m = n) :
    (l.map key).Nodup := by
  refine List.pairwise_iff_getElem.mpr fun m n hm hn before same => ?_
  rw [List.getElem_map, List.getElem_map] at same
  exact absurd (unique m n _ _ (List.getElem?_eq_getElem _) (List.getElem?_eq_getElem _) same)
    (Nat.ne_of_lt before)

theorem find?_append_of_some {l : List α} {q : α → Bool} {a : α} (h : l.find? q = some a)
    (more : List α) : (l ++ more).find? q = some a := by
  rw [List.find?_append, h]
  rfl

theorem find?_append_new {l : List α} {a : α} (absent : l.find? (fun b => key b == key a) = none)
    (i : String) : (l ++ [a]).find? (fun b => key b == i) =
      if i = key a then some a else l.find? fun b => key b == i := by
  rw [List.find?_append]
  by_cases here : i = key a
  · subst here
    simp [absent]
  · have other : (key a == i) = false := by simpa using fun e => here e.symm
    simp [other, here]

theorem find?_appended (l : List α) (a : α) (i : String) :
    (l ++ [a]).find? (fun b => key b == i) = l.find? (fun b => key b == i) ∨
      (i = key a ∧ l.find? (fun b => key b == i) = none ∧
        (l ++ [a]).find? (fun b => key b == i) = some a) := by
  rw [List.find?_append]
  cases found : l.find? fun b => key b == i with
  | some b => exact .inl rfl
  | none =>
    by_cases here : key a = i
    · exact .inr ⟨here.symm, rfl, by simp [here]⟩
    · exact .inl (by simp [here])

end Keyed

theorem filter_set_of_false {α : Type} (q : α → Bool) {l : List α} {n : Nat} {a b : α}
    (there : l[n]? = some a) (before : q a = false) (after : q b = false) :
    (l.set n b).filter q = l.filter q := by
  induction l generalizing n with
  | nil => rfl
  | cons x l ih =>
    cases n with
    | zero =>
      obtain rfl := Option.some.inj there
      simp [before, after]
    | succ n =>
      have rest := ih (n := n) there
      simp only [List.set_cons_succ, List.filter_cons, rest]

/-- No two authorisations have one id. -/
def Distinct (records : List Authorisation) : Prop :=
  (records.map Authorisation.id).Nodup

namespace Distinct

theorem nil : Distinct [] := List.nodup_nil

variable {records : List Authorisation}

theorem unique (h : Distinct records) {m n : Nat} {a b : Authorisation}
    (ha : records[m]? = some a) (hb : records[n]? = some b) (same : a.id = b.id) : m = n := by
  have bound : m < (records.map Authorisation.id).length := by
    rw [List.length_map]
    exact (List.getElem?_eq_some_iff.mp ha).1
  refine (List.getElem?_inj bound h).mp ?_
  rw [List.getElem?_map, List.getElem?_map, ha, hb, Option.map_some, Option.map_some, same]

theorem append (h : Distinct records) {a : Authorisation}
    (fresh : a.id ∉ records.map Authorisation.id) : Distinct (records ++ [a]) := by
  rw [Distinct, List.map_append, List.map_singleton, List.nodup_append]
  refine ⟨h, List.pairwise_singleton _ _, fun i hi j hj same => fresh ?_⟩
  rw [← List.mem_singleton.mp hj, ← same]
  exact hi

theorem set (h : Distinct records) {n : Nat} {a b : Authorisation} (there : records[n]? = some a)
    (same : b.id = a.id) : Distinct (records.set n b) := by
  have ids : (records.set n b).map Authorisation.id = records.map Authorisation.id := by
    rw [List.map_set, same]
    refine List.ext_getElem? fun m => ?_
    rw [List.getElem?_set, List.getElem?_map]
    split
    · next position =>
      have bound : n < (records.map Authorisation.id).length := by
        rw [List.length_map]
        exact (List.getElem?_eq_some_iff.mp there).1
      rw [if_pos bound, ← position, there]
      rfl
    · rfl
  rw [Distinct, ids]
  exact h

end Distinct

end StrongAuth.Store
