import StrongAuth.Calendar.Date.Text

set_option autoImplicit false

namespace StrongAuth.Text

def Stops (rest : List Char) : Prop :=
  ∀ c tail, rest = c :: tail → isDigit c = false

theorem stops_nil : Stops [] := by
  intro c tail h
  cases h

theorem stops_cons {c : Char} (h : isDigit c = false) (rest : List Char) : Stops (c :: rest) := by
  intro d tail e
  cases e
  exact h

theorem numeralValue_toDigits (n : Nat) : numeralValue (Nat.toDigits 10 n) = n :=
  Nat.ofDigitChars_ten_toDigits

theorem numeralValue_zeros (k : Nat) (ds : List Char) :
    numeralValue (List.replicate k '0' ++ ds) = numeralValue ds := by
  induction k with
  | zero => rfl
  | succ k ih => exact ih

def paddedDigits (width n : Nat) : List Char :=
  List.replicate (width - (Nat.toDigits 10 n).length) '0' ++ Nat.toDigits 10 n

theorem toList_padded (width n : Nat) : (padded width n).toList = paddedDigits width n := by
  simp [padded, paddedDigits]

theorem paddedDigits_ne_nil (width n : Nat) : paddedDigits width n ≠ [] :=
  List.append_ne_nil_of_right_ne_nil _ Nat.toDigits_ne_nil

theorem paddedDigits_all (width n : Nat) : (paddedDigits width n).all isDigit = true := by
  rw [List.all_eq_true]
  intro c hc
  rcases List.mem_append.mp hc with hc | hc
  · rw [List.eq_of_mem_replicate hc]
    rfl
  · exact Nat.isDigit_of_mem_toDigits (by decide) (by decide) hc

theorem natural?_paddedDigits (width n : Nat) : natural? (paddedDigits width n) = some n := by
  have some : (paddedDigits width n).isEmpty = false :=
    List.isEmpty_eq_false_iff.mpr (paddedDigits_ne_nil width n)
  have value : numeralValue (paddedDigits width n) = n :=
    (numeralValue_zeros _ _).trans (numeralValue_toDigits n)
  rw [natural?, some, paddedDigits_all, value]
  rfl

theorem length_paddedDigits {width n : Nat} (positive : 0 < width) (small : n < Nat.pow 10 width) :
    (paddedDigits width n).length = width := by
  have short : (Nat.toDigits 10 n).length ≤ width :=
    (Nat.length_toDigits_le_iff (by decide) positive).mpr small
  rw [paddedDigits, List.length_append, List.length_replicate]
  omega

end StrongAuth.Text

namespace StrongAuth.Calendar.Date
open StrongAuth.Text

theorem takeDigits_paddedDigits {width n limit : Nat} {rest : List Char} (stops : Stops rest)
    (fits : (paddedDigits width n).length ≤ limit) :
    takeDigits limit (paddedDigits width n ++ rest) = some (n, rest) := by
  have nothing : (rest.take (limit - (paddedDigits width n).length)).takeWhile isDigit = [] := by
    cases rest with
    | nil => simp
    | cons c tail =>
      cases limit - (paddedDigits width n).length with
      | zero => rfl
      | succ k => simp [stops c tail rfl]
  have taken : ((paddedDigits width n ++ rest).take limit).takeWhile isDigit =
      paddedDigits width n := by
    rw [List.take_append, List.take_of_length_le fits,
      List.takeWhile_append_of_pos (List.all_eq_true.mp (paddedDigits_all width n)), nothing,
      List.append_nil]
  simp only [takeDigits, taken, natural?_paddedDigits, Option.map_some, List.drop_left]

theorem range_of_isDigit {c : Char} (h : isDigit c = true) : 48 ≤ c.toNat ∧ c.toNat ≤ 57 := by
  simp only [isDigit, Bool.and_eq_true, decide_eq_true_eq] at h
  exact h

theorem isBlankChar_of_isDigit {c : Char} (h : isDigit c = true) : isBlankChar c = false := by
  have range := range_of_isDigit h
  simp only [isBlankChar, Bool.or_eq_false_iff, Bool.and_eq_false_iff, decide_eq_false_iff_not,
    beq_eq_false_iff_ne]
  omega

theorem trimStart_paddedDigits (width n : Nat) (rest : List Char) :
    trimStart (paddedDigits width n ++ rest) = paddedDigits width n ++ rest ∧
      (∀ tail, paddedDigits width n ++ rest ≠ '-' :: tail) ∧
      ∀ tail, paddedDigits width n ++ rest ≠ '+' :: tail := by
  have digits := paddedDigits_all width n
  cases shape : paddedDigits width n with
  | nil => exact absurd shape (paddedDigits_ne_nil width n)
  | cons c ds =>
    rw [shape, List.all_cons, Bool.and_eq_true] at digits
    have first := digits.1
    refine ⟨?_, ?_, ?_⟩
    · simp [trimStart, isBlankChar_of_isDigit first]
    · rintro tail same
      cases same
      cases first
    · rintro tail same
      cases same
      cases first

theorem takeYear_text (year : Int) {rest : List Char} (stops : Stops rest) :
    takeYear ((yearText year).toList ++ rest) = some (year, rest) := by
  have whole (n : Nat) : (paddedDigits 4 n).length ≤ (paddedDigits 4 n ++ rest).length := by
    rw [List.length_append]
    omega
  unfold yearText
  split
  · next negative =>
    have text : ("-" ++ padded 4 year.natAbs).toList = '-' :: paddedDigits 4 year.natAbs := by
      simp [toList_padded]
    rw [text, List.cons_append]
    change (takeDigits _ (paddedDigits 4 year.natAbs ++ rest)).map _ = _
    rw [takeDigits_paddedDigits stops (whole _), Option.map_some]
    exact congrArg some (Prod.ext (by simp only; omega) rfl)
  · split
    · next large =>
      have text : ("+" ++ padded 4 year.natAbs).toList = '+' :: paddedDigits 4 year.natAbs := by
        simp [toList_padded]
      rw [text, List.cons_append]
      change (takeDigits _ (paddedDigits 4 year.natAbs ++ rest)).map _ = _
      rw [takeDigits_paddedDigits stops (whole _), Option.map_some]
      exact congrArg some (Prod.ext (by simp only; omega) rfl)
    · next positive small =>
      obtain ⟨trimmed, minus, plus⟩ := trimStart_paddedDigits 4 year.natAbs rest
      have length : (paddedDigits 4 year.natAbs).length ≤ 4 :=
        Nat.le_of_eq (length_paddedDigits (by decide) (show _ < 10000 by omega))
      rw [toList_padded, takeYear, trimmed]
      split
      · next tail same => exact absurd same (minus tail)
      · next tail same => exact absurd same (plus tail)
      · rw [takeDigits_paddedDigits stops length, Option.map_some]
        exact congrArg some (Prod.ext (by simp only; omega) rfl)

theorem takeDashed_text {n : Nat} (small : n < 100) {rest : List Char} (stops : Stops rest) :
    takeDashed ('-' :: ((padded 2 n).toList ++ rest)) = some (n, rest) := by
  have length : (paddedDigits 2 n).length ≤ 2 :=
    Nat.le_of_eq (length_paddedDigits (by decide) (show _ < 100 from small))
  rw [toList_padded]
  change takeDigits 2 (trimStart (paddedDigits 2 n ++ rest)) = _
  rw [(trimStart_paddedDigits 2 n rest).1]
  exact takeDigits_paddedDigits stops length

theorem bounds (d : Date) : d.month < 100 ∧ d.day < 100 := by
  have covered := d.exists_day
  simp only [isDate, Bool.and_eq_true, decide_eq_true_eq] at covered
  obtain ⟨⟨⟨-, month⟩, -⟩, day⟩ := covered
  have days : daysInMonth d.year d.month ≤ 31 := by
    unfold daysInMonth
    split
    · split <;> decide
    all_goals decide
  omega

/-- Every date is read back from its text. -/
theorem ofText?_text (d : Date) : ofText? d.text = some d := by
  obtain ⟨month, day⟩ := d.bounds
  have dash (rest : List Char) : Stops ('-' :: rest) := stops_cons rfl rest
  have chars : d.text.toList = (yearText d.year).toList ++
      '-' :: ((padded 2 d.month).toList ++ '-' :: ((padded 2 d.day).toList ++ [])) := by
    simp [text]
  unfold ofText?
  rw [chars]
  simp only [Option.bind_eq_bind]
  rw [takeYear_text d.year (dash _), Option.bind_some, takeDashed_text month (dash _),
    Option.bind_some, takeDashed_text day stops_nil, Option.bind_some]
  exact of?_eq_some d

end StrongAuth.Calendar.Date
