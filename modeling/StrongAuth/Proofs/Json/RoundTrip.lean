import StrongAuth.Json.Reader
import StrongAuth.Json.Writer

set_option autoImplicit false

namespace StrongAuth.Json
open StrongAuth.Text

def syms (cs : List Char) : List Symbol := cs.map .char

@[simp] theorem syms_nil : syms [] = [] := rfl

@[simp] theorem syms_cons (c : Char) (cs : List Char) : syms (c :: cs) = .char c :: syms cs := rfl

@[simp] theorem syms_append (cs ds : List Char) : syms (cs ++ ds) = syms cs ++ syms ds :=
  List.map_append

def Spells (p : Piece) (c : Char) : Prop :=
  ∀ ps, assemble? (p :: ps) = (assemble? ps).map (c :: ·)

theorem plain_spells (c : Char) : Spells (.plain c) c := fun _ => rfl

theorem unit_spells {n : Nat} (h : n < 0xd800) : Spells (.unit n) (Char.ofNat n) := by
  have hh : isHighSurrogate n = false := by simp [isHighSurrogate]; omega
  have hl : isLowSurrogate n = false := by simp [isLowSurrogate]; omega
  intro ps
  cases ps with
  | nil => simp [assemble?, hh, hl]
  | cons q ps => cases q <;> simp [assemble?, hh, hl]

theorem hexValue?_hexChar {d : Nat} (h : d < 16) : hexValue? (hexChar d) = some d := by
  have all : ∀ d < 16, hexValue? (hexChar d) = some d := by decide
  exact all d h

theorem unit?_hexChar {n : Nat} (h : n < 0x20) :
    unit? '0' '0' (hexChar (n / 16)) (hexChar (n % 16)) = some n := by
  have zero : hexValue? '0' = some 0 := by decide
  have high := hexValue?_hexChar (d := n / 16) (by omega)
  have low := hexValue?_hexChar (d := n % 16) (by omega)
  simp only [unit?, zero, high, low, Option.bind_eq_bind, Option.bind_some]
  congr 1
  omega

theorem pieces?_plain {c : Char} {rest tail : List Symbol} {ps : List Piece}
    (hq : c ≠ '"') (hb : c ≠ '\\') (hc : ¬ c.toNat < 0x20)
    (h : pieces? rest = some (ps, tail)) :
    pieces? (.char c :: rest) = some (.plain c :: ps, tail) := by
  rw [pieces?.eq_def]
  split <;> simp_all

theorem pieces?_escaped (c : Char) {rest tail : List Symbol} {ps : List Piece}
    (h : pieces? rest = some (ps, tail)) :
    ∃ p, pieces? (syms (escaped c) ++ rest) = some (p :: ps, tail) ∧ Spells p c := by
  unfold escaped
  split
  iterate 7 exact ⟨.plain _, by simp [pieces?, shortEscape?, h], plain_spells _⟩
  next hq hb _ _ _ _ _ =>
    split
    next hc =>
      have spells := unit_spells (n := c.toNat) (by omega)
      rw [Char.ofNat_toNat] at spells
      refine ⟨.unit c.toNat, ?_, spells⟩
      simp [pieces?, unit?_hexChar hc, h]
    next hc => exact ⟨.plain c, pieces?_plain hq hb hc h, plain_spells c⟩

theorem pieces?_text (cs : List Char) (rest : List Symbol) :
    ∃ ps, pieces? (syms (cs.flatMap escaped) ++ .char '"' :: rest) = some (ps, rest) ∧
      assemble? ps = some cs := by
  induction cs with
  | nil => exact ⟨[], by simp [pieces?], rfl⟩
  | cons c cs ih =>
    obtain ⟨ps, hp, ha⟩ := ih
    obtain ⟨p, hpp, spells⟩ := pieces?_escaped c hp
    refine ⟨p :: ps, ?_, ?_⟩
    · simpa [List.append_assoc] using hpp
    · rw [spells ps, ha]
      rfl

theorem string?_text (s : String) (rest : List Symbol) :
    string? (syms (s.toList.flatMap escaped) ++ .char '"' :: rest) = some (some s, rest) := by
  obtain ⟨ps, hp, ha⟩ := pieces?_text s.toList rest
  simp [string?, hp, ha]

end StrongAuth.Json

namespace StrongAuth.Numeral
open StrongAuth.Text

/-- A whole number in the only form that is written: digits without a leading zero. -/
def isWhole (n : Numeral) : Bool :=
  n.fraction.isNone && n.exponent.isNone && !n.whole.isEmpty && n.whole.all isDigit &&
    (n.whole.length == 1 || n.whole.head? != some '0')

theorem isDigit_eq (c : Char) : isDigit c = c.isDigit := rfl

theorem toDigits_head {n : Nat} (h : n ≠ 0) : (Nat.toDigits 10 n).head? ≠ some '0' := by
  induction n using Nat.strongRecOn with
  | ind n ih =>
    rw [Nat.toDigits_eq_if (by decide)]
    split
    next hn =>
      have all : ∀ d < 10, d ≠ 0 → Nat.digitChar d ≠ '0' := by decide
      simpa using all n hn h
    next hn =>
      have tail := ih (n / 10) (by omega) (by omega)
      cases hd : Nat.toDigits 10 (n / 10) with
      | nil => exact absurd hd Nat.toDigits_ne_nil
      | cons c cs =>
        rw [hd] at tail
        simpa using tail

theorem ofInt_isWhole (n : Int) : (ofInt n).isWhole = true := by
  have digits : (Nat.toDigits 10 n.natAbs).all isDigit = true := by
    rw [List.all_eq_true]
    intro c hc
    rw [isDigit_eq]
    exact Nat.isDigit_of_mem_toDigits (by decide) (by decide) hc
  have head : (Nat.toDigits 10 n.natAbs).length = 1 ∨
      (Nat.toDigits 10 n.natAbs).head? ≠ some '0' := by
    by_cases h : n.natAbs = 0
    · left
      rw [h]
      rfl
    · exact .inr (toDigits_head h)
  simp only [isWhole, ofInt, Option.isNone_none, Bool.true_and, digits, Bool.and_true,
    Bool.and_eq_true, Bool.not_eq_true', List.isEmpty_eq_false_iff, Bool.or_eq_true, beq_iff_eq,
    bne_iff_ne]
  exact ⟨Nat.toDigits_ne_nil, head⟩

end StrongAuth.Numeral

namespace StrongAuth.Json
open StrongAuth.Text

/-- What follows cannot prolong a number. -/
def Closed (rest : List Symbol) : Prop :=
  ∀ c tail, rest = .char c :: tail → isDigit c = false ∧ c ≠ '.' ∧ c ≠ 'e' ∧ c ≠ 'E'

theorem closed_nil : Closed [] := by
  intro c tail h
  cases h

theorem closed_cons {c : Char} {rest : List Symbol}
    (h : isDigit c = false ∧ c ≠ '.' ∧ c ≠ 'e' ∧ c ≠ 'E') : Closed (.char c :: rest) := by
  intro d tail e
  cases e
  exact h

theorem spanDigits_syms {ds : List Char} {rest : List Symbol} (hd : ds.all isDigit = true)
    (hr : Closed rest) : spanDigits (syms ds ++ rest) = (ds, rest) := by
  induction ds with
  | nil =>
    cases rest with
    | nil => rfl
    | cons x tail =>
      cases x with
      | stray b => rfl
      | char c => simp [spanDigits, (hr c tail rfl).1]
  | cons d ds ih =>
    rw [List.all_cons, Bool.and_eq_true] at hd
    simp [spanDigits, hd.1, ih hd.2]

theorem fraction?_closed {rest : List Symbol} (h : Closed rest) :
    fraction? rest = some (none, rest) := by
  unfold fraction?
  split
  · next tail => exact absurd rfl (h '.' tail rfl).2.1
  · rfl

theorem exponent?_closed {rest : List Symbol} (h : Closed rest) :
    exponent? rest = some (none, rest) := by
  unfold exponent?
  split
  · next tail => exact absurd rfl (h 'e' tail rfl).2.2.1
  · next tail => exact absurd rfl (h 'E' tail rfl).2.2.2
  · rfl

theorem whole?_digits {ds : List Char} {rest : List Symbol} (hne : ds ≠ [])
    (hd : ds.all isDigit = true) (hz : ds.length = 1 ∨ ds.head? ≠ some '0') (hr : Closed rest) :
    whole? (syms ds ++ rest) = some (ds, rest) := by
  unfold whole?
  rw [spanDigits_syms hd hr]
  split <;> simp_all

theorem numeral?_chars {n : Numeral} (h : n.isWhole = true) {rest : List Symbol}
    (hr : Closed rest) : numeral? (syms n.chars ++ rest) = some (n, rest) := by
  obtain ⟨negative, whole, fraction, exponent⟩ := n
  simp only [Numeral.isWhole, Bool.and_eq_true, Option.isNone_iff_eq_none, Bool.not_eq_true',
    List.isEmpty_eq_false_iff, Bool.or_eq_true, beq_iff_eq, bne_iff_ne] at h
  obtain ⟨⟨⟨⟨rfl, rfl⟩, hne⟩, hd⟩, hz⟩ := h
  have read := whole?_digits hne hd hz hr
  cases negative with
  | true =>
    simp [Numeral.chars, numeral?, read, fraction?_closed hr, exponent?_closed hr]
  | false =>
    cases whole with
    | nil => exact absurd rfl hne
    | cons d ds =>
      have minus : d ≠ '-' := by
        rintro rfl
        simp [isDigit] at hd
      simp only [Numeral.chars, numeral?, Bool.false_eq_true, if_false, List.nil_append,
        List.append_nil, syms_cons, List.cons_append] at read ⊢
      split
      · next tail e => simp_all
      · simp [read, fraction?_closed hr, exponent?_closed hr]

def isOpening (c : Char) : Bool := !isSpace (.char c) && c != ']' && c != '}'

theorem digit_isOpening {c : Char} (h : isDigit c = true) : isOpening c = true := by
  simp only [isOpening, isSpace, Bool.and_eq_true, Bool.not_eq_true', Bool.or_eq_false_iff,
    beq_eq_false_iff_ne, bne_iff_ne]
  refine ⟨⟨⟨⟨⟨?_, ?_⟩, ?_⟩, ?_⟩, ?_⟩, ?_⟩ <;> (rintro rfl; revert h; decide)

theorem numeral_first {n : Numeral} (h : n.isWhole = true) :
    ∃ c cs, n.chars = c :: cs ∧ (isDigit c = true ∨ c = '-') := by
  obtain ⟨negative, whole, fraction, exponent⟩ := n
  simp only [Numeral.isWhole, Bool.and_eq_true, Option.isNone_iff_eq_none, Bool.not_eq_true',
    List.isEmpty_eq_false_iff] at h
  obtain ⟨⟨⟨⟨rfl, rfl⟩, hne⟩, hd⟩, -⟩ := h
  cases negative with
  | true => exact ⟨'-', whole, by simp [Numeral.chars], .inr rfl⟩
  | false =>
    cases whole with
    | nil => exact absurd rfl hne
    | cons d ds =>
      rw [List.all_cons, Bool.and_eq_true] at hd
      exact ⟨d, ds, by simp [Numeral.chars], .inl hd.1⟩

/-- The values whose text says all that there is to say. -/
def isWritten (v : Json) : Bool := v.isSound Numeral.isWhole

theorem chars_first {v : Json} (h : v.isWritten = true) :
    ∃ c cs, v.chars = c :: cs ∧ isOpening c = true := by
  cases v with
  | null => exact ⟨'n', _, rfl, by decide⟩
  | bool b => cases b <;> exact ⟨_, _, rfl, by decide⟩
  | number n =>
    obtain ⟨c, cs, hc, hd | rfl⟩ := numeral_first (n := n) (by simpa [isWritten, isSound] using h)
    · exact ⟨c, cs, by simpa [chars] using hc, digit_isOpening hd⟩
    · exact ⟨'-', cs, by simpa [chars] using hc, by decide⟩
  | string s =>
    cases s with
    | none => simp [isWritten, isSound] at h
    | some s => exact ⟨'"', _, rfl, by decide⟩
  | array items => exact ⟨'[', _, rfl, by decide⟩
  | object members => exact ⟨'{', _, rfl, by decide⟩

theorem skipSpace_opening {c : Char} (h : isOpening c = true) (rest : List Symbol) :
    skipSpace (.char c :: rest) = .char c :: rest := by
  simp only [isOpening, Bool.and_eq_true, Bool.not_eq_true'] at h
  simp [skipSpace, h.1.1]

theorem value?_numeral {n : Numeral} (h : n.isWhole = true) (fuel : Nat) {rest : List Symbol}
    (hr : Closed rest) :
    value? (fuel + 1) (syms n.chars ++ rest) = some (.number n, rest) := by
  have read := numeral?_chars h hr
  obtain ⟨c, cs, hc, hd⟩ := numeral_first h
  have opening : isOpening c = true := by
    rcases hd with hd | rfl
    · exact digit_isOpening hd
    · decide
  have other : c ≠ 'n' ∧ c ≠ 't' ∧ c ≠ 'f' ∧ c ≠ '"' ∧ c ≠ '[' ∧ c ≠ '{' := by
    refine ⟨?_, ?_, ?_, ?_, ?_, ?_⟩ <;>
      (rintro rfl; rcases hd with hd | hd <;> revert hd <;> decide)
  rw [hc] at read ⊢
  rw [value?, syms_cons, List.cons_append, skipSpace_opening opening]
  rw [syms_cons, List.cons_append] at read
  split <;> simp_all

theorem value?_array {v : Json} (h : v.isWritten = true) {fuel : Nat} (cs : List Char)
    {rest tail : List Symbol} {vs : List Json}
    (read : items? fuel (syms (v.chars ++ cs) ++ rest) = some (vs, tail)) :
    value? (fuel + 1) (.char '[' :: (syms (v.chars ++ cs) ++ rest)) = some (.array vs, tail) := by
  obtain ⟨c, ds, hc, ho⟩ := chars_first h
  simp only [hc, List.cons_append, syms_cons] at read ⊢
  rw [value?, skipSpace_opening (by decide)]
  simp only [skipSpace_opening ho, read]
  split
  · next tail e => simp_all [isOpening]
  · rfl

theorem value?_object {fuel : Nat} {rest tail : List Symbol}
    {ms : List (Option String × Json)}
    (read : members? fuel (.char '"' :: rest) = some (ms, tail)) :
    value? (fuel + 1) (.char '{' :: .char '"' :: rest) = some (.object ms, tail) := by
  rw [value?, skipSpace_opening (by decide)]
  simp [skipSpace, isSpace, read]

theorem members?_last (k : String) {v : Json} {fuel : Nat} {rest tail : List Symbol}
    (read : value? fuel rest = some (v, .char '}' :: tail)) :
    members? (fuel + 1) (syms (quoted k) ++ .char ':' :: rest) = some ([(some k, v)], tail) := by
  have key := string?_text k (.char ':' :: rest)
  simp [members?, quoted, key, read, skipSpace, isSpace]

theorem members?_more (k : String) {v : Json} {fuel : Nat} {rest more tail : List Symbol}
    {ms : List (Option String × Json)} (read : value? fuel rest = some (v, .char ',' :: more))
    (others : members? fuel more = some (ms, tail)) :
    members? (fuel + 1) (syms (quoted k) ++ .char ':' :: rest) =
      some ((some k, v) :: ms, tail) := by
  have key := string?_text k (.char ':' :: rest)
  simp [members?, quoted, key, read, others, skipSpace, isSpace]

mutual
theorem value?_chars : ∀ (v : Json) (fuel : Nat) (rest : List Symbol), v.isWritten = true →
    Closed rest → 2 * v.chars.length ≤ fuel →
    value? fuel (syms v.chars ++ rest) = some (v, rest)
  | v, 0, _, hv, _, hf => by
    obtain ⟨c, cs, hc, -⟩ := chars_first hv
    simp [hc] at hf
  | .null, _ + 1, _, _, _, _ => by simp [chars, value?, skipSpace, isSpace]
  | .bool true, _ + 1, _, _, _, _ => by simp [chars, value?, skipSpace, isSpace]
  | .bool false, _ + 1, _, _, _, _ => by simp [chars, value?, skipSpace, isSpace]
  | .number n, fuel + 1, rest, hv, hr, _ => by
    rw [chars]
    exact value?_numeral (by simpa [isWritten, isSound] using hv) fuel hr
  | .string none, _ + 1, _, hv, _, _ => by simp [isWritten, isSound] at hv
  | .string (some s), _ + 1, rest, _, _, _ => by
    have read := string?_text s rest
    simp [chars, quoted, value?, skipSpace, isSpace, read]
  | .array [], _ + 1, _, _, _, _ => by simp [chars, itemsChars, value?, skipSpace, isSpace]
  | .array (v :: vs), fuel + 1, rest, hv, _, hf => by
    have sound : areSound Numeral.isWhole (v :: vs) = true := by
      simpa [isWritten, isSound] using hv
    have first : v.isWritten = true := by
      simp only [areSound, Bool.and_eq_true] at sound
      exact sound.1
    have read := items?_chars v vs fuel rest sound
      (by simp only [chars, List.length_cons, List.length_append, List.length_nil] at hf; omega)
    cases vs with
    | nil =>
      have array := value?_array first [] (by simpa [itemsChars] using read)
      simpa [chars, itemsChars] using array
    | cons w ws =>
      have array := value?_array first (',' :: itemsChars (w :: ws))
        (by simpa [itemsChars] using read)
      simpa [chars, itemsChars] using array
  | .object [], _ + 1, _, _, _, _ => by simp [chars, membersChars, value?, skipSpace, isSpace]
  | .object (m :: ms), fuel + 1, rest, hv, _, hf => by
    have read := members?_chars m ms fuel rest (by simpa [isWritten, isSound] using hv)
      (by simp only [chars, List.length_cons, List.length_append, List.length_nil] at hf; omega)
    cases ms <;>
      (simp only [membersChars, quoted, List.cons_append, syms_cons] at read
       have object := value?_object read
       simpa [chars, membersChars, quoted] using object)

theorem items?_chars : ∀ (v : Json) (vs : List Json) (fuel : Nat) (rest : List Symbol),
    areSound Numeral.isWhole (v :: vs) = true → 2 * (itemsChars (v :: vs)).length < fuel →
    items? fuel (syms (itemsChars (v :: vs)) ++ .char ']' :: rest) = some (v :: vs, rest)
  | _, _, 0, _, _, hf => by omega
  | v, [], fuel + 1, rest, hv, hf => by
    have read := value?_chars v fuel (.char ']' :: rest)
      (by simpa [areSound, isWritten] using hv) (closed_cons (by decide))
      (by simp only [itemsChars] at hf; omega)
    simp [items?, itemsChars, read, skipSpace, isSpace]
  | v, w :: ws, fuel + 1, rest, hv, hf => by
    have both : v.isWritten = true ∧ areSound Numeral.isWhole (w :: ws) = true := by
      simpa [areSound, isWritten] using hv
    simp only [itemsChars, List.length_append, List.length_cons] at hf
    have first := value?_chars v fuel
      (.char ',' :: (syms (itemsChars (w :: ws)) ++ .char ']' :: rest)) both.1
      (closed_cons (by decide)) (by omega)
    have others := items?_chars w ws fuel rest both.2 (by omega)
    simp [items?, itemsChars, first, others, skipSpace, isSpace]

theorem members?_chars : ∀ (m : Option String × Json) (ms : List (Option String × Json))
    (fuel : Nat) (rest : List Symbol), membersSound Numeral.isWhole (m :: ms) = true →
    2 * (membersChars (m :: ms)).length < fuel →
    members? fuel (syms (membersChars (m :: ms)) ++ .char '}' :: rest) = some (m :: ms, rest)
  | _, _, 0, _, _, hf => by omega
  | (none, v), ms, fuel + 1, rest, hv, hf => by simp [membersSound] at hv
  | (some k, v), [], fuel + 1, rest, hv, hf => by
    simp only [membersChars, List.length_append, List.length_cons] at hf
    have read := value?_chars v fuel (.char '}' :: rest)
      (by simpa [membersSound, isWritten] using hv) (closed_cons (by decide)) (by omega)
    have member := members?_last k read
    simpa [membersChars] using member
  | (some k, v), w :: ws, fuel + 1, rest, hv, hf => by
    have both : v.isWritten = true ∧ membersSound Numeral.isWhole (w :: ws) = true := by
      simpa [membersSound, isWritten] using hv
    simp only [membersChars, List.length_append, List.length_cons] at hf
    have read := value?_chars v fuel
      (.char ',' :: (syms (membersChars (w :: ws)) ++ .char '}' :: rest)) both.1
      (closed_cons (by decide)) (by omega)
    have others := members?_chars w ws fuel rest both.2 (by omega)
    have member := members?_more k read others
    simpa [membersChars] using member
end

theorem ofText?_write {v : Json} (h : v.isWritten = true) : ofText? v.write = some v := by
  have read := value?_chars v (2 * (syms v.chars).length + 1) [] h closed_nil
    (by simp only [syms, List.length_map]; omega)
  rw [List.append_nil] at read
  change read? ((String.ofList v.chars).toList.map .char) = some v
  rw [String.toList_ofList]
  change read? (syms v.chars) = some v
  simp [read?, read, skipSpace]

end StrongAuth.Json
