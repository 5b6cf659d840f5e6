import StrongAuth.Json.Records
import StrongAuth.Proofs.Json.RoundTrip

set_option autoImplicit false

namespace StrongAuth.Json

theorem filterMap_fieldOf? (names : List String) {members : List (String × Json)}
    (known : ∀ m ∈ members, m.1 ∈ names) :
    (members.map fun m => (some m.1, m.2)).filterMap (fieldOf? names) = members := by
  induction members with
  | nil => rfl
  | cons m members ih =>
    have first := known m List.mem_cons_self
    have others := ih fun x hx => known x (List.mem_cons_of_mem _ hx)
    simp only [List.map_cons, List.filterMap_cons, fieldOf?, List.contains_iff_mem.mpr first,
      if_true, others]

theorem fields?_record (names : List String) (spare : Nat) {members : List (String × Json)}
    (known : members.map (·.1) = names) (distinct : names.Nodup) :
    fields? names spare (record members) = some members := by
  have keys : (members.map fun m => (some m.1, m.2)).all (·.1.isSome) = true := by
    simp [List.all_map]
  have found := filterMap_fieldOf? names fun m hm => known ▸ List.mem_map_of_mem hm
  change known? names (members.map fun m => (some m.1, m.2)) = some members
  simp only [known?, keys, if_true]
  rw [found, known, if_pos distinct]

theorem text_isWritten (s : String) : (text s).isWritten = true := rfl

theorem bool_isWritten (b : Bool) : (Json.bool b).isWritten = true := rfl

theorem int_isWritten (n : Int) : (int n).isWritten = true := by
  simp [isWritten, int, isSound, Numeral.ofInt_isWhole]

theorem array_isWritten {items : List Json} (h : ∀ v ∈ items, v.isWritten = true) :
    (Json.array items).isWritten = true := by
  change areSound Numeral.isWhole items = true
  induction items with
  | nil => rfl
  | cons v items ih =>
    have first := h v List.mem_cons_self
    have others := ih fun w hw => h w (List.mem_cons_of_mem _ hw)
    simp only [isWritten] at first
    simp [areSound, first, others]

theorem orNull_isWritten {α : Type} {encode : α → Json} (h : ∀ a, (encode a).isWritten = true)
    (x : Option α) : (orNull encode x).isWritten = true := by
  cases x with
  | none => rfl
  | some a => exact h a

theorem record_isWritten {members : List (String × Json)}
    (h : ∀ m ∈ members, m.2.isWritten = true) : (record members).isWritten = true := by
  change membersSound Numeral.isWhole (members.map fun m => (some m.1, m.2)) = true
  induction members with
  | nil => rfl
  | cons m members ih =>
    have first := h m List.mem_cons_self
    have others := ih fun x hx => h x (List.mem_cons_of_mem _ hx)
    simp only [isWritten] at first
    simp [membersSound, first, others]

theorem optional?_orNull {α : Type} {fields : Fields} {name : String} {encode : α → Json}
    {decode? : Json → Option α} {x : Option α} (there : fields.find? name = some (orNull encode x))
    (decodes : ∀ a ∈ x, decode? (encode a) = some a) (full : ∀ a, encode a ≠ .null) :
    fields.optional? name decode? = some x := by
  unfold Fields.optional?
  rw [there]
  cases x with
  | none => rfl
  | some a =>
    simp only [orNull]
    split
    · next e => cases e
    · next e => exact absurd (Option.some.inj e) (full a)
    · next v _ e =>
      cases e
      rw [decodes a rfl]
      rfl

theorem asString?_text (s : String) : (text s).asString? = some s := rfl

theorem text_ne_null (s : String) : text s ≠ .null := nofun

theorem optional?_text {fields : Fields} {name : String} {x : Option String}
    (there : fields.find? name = some (orNull text x)) :
    fields.optional? name asString? = some x :=
  optional?_orNull there (fun s _ => asString?_text s) text_ne_null

/-- A number is read back, or refused for its size. -/
theorem eq_of_asInt?_int {least greatest n m : Int} (h : asInt? least greatest (int n) = some m) :
    m = n := by
  have digits : Text.numeralValue (Nat.toDigits 10 n.natAbs) = n.natAbs :=
    Nat.ofDigitChars_ten_toDigits
  simp only [int, Numeral.ofInt, asInt?, digits, Option.ite_none_left_eq_some,
    decide_eq_true_eq] at h
  obtain ⟨-, e⟩ := h
  split at e <;> (simp only [Option.some.injEq] at e; omega)

theorem asInt32?_int {n : Int} (least : -2147483648 ≤ n) (greatest : n ≤ 2147483647) :
    asInt32? (int n) = some n := by
  have digits : Text.numeralValue (Nat.toDigits 10 n.natAbs) = n.natAbs :=
    Nat.ofDigitChars_ten_toDigits
  have sign : (if decide (n < 0) = true then -(n.natAbs : Int) else n.natAbs) = n := by
    split
    · next negative =>
      rw [decide_eq_true_eq] at negative
      omega
    · next negative =>
      rw [decide_eq_true_eq] at negative
      omega
  have inside : ¬(decide (n < 0) && n.natAbs == 0 || n < -2147483648 || 2147483647 < n) = true := by
    simp only [Bool.or_eq_true, Bool.and_eq_true, decide_eq_true_eq, beq_iff_eq]
    omega
  simp only [asInt32?, int, Numeral.ofInt, asInt?, digits, sign]
  exact if_neg inside

theorem bounds_of_asInt? {least greatest n : Int} {v : Json} (h : asInt? least greatest v = some n) :
    least ≤ n ∧ n ≤ greatest := by
  unfold asInt? at h
  split at h
  · simp only [Option.ite_none_left_eq_some, Bool.or_eq_true, decide_eq_true_eq,
      not_or] at h
    obtain ⟨⟨⟨-, above⟩, below⟩, e⟩ := h
    obtain rfl := Option.some.inj e
    exact ⟨Int.not_lt.mp above, Int.not_lt.mp below⟩
  · cases h

theorem eq_of_optional?_int32 {fields : Fields} {name : String} {x y : Option Int}
    (there : fields.find? name = some (orNull int x))
    (h : fields.optional? name asInt32? = some y) : y = x := by
  unfold Fields.optional? at h
  rw [there] at h
  cases x with
  | none => exact (Option.some.inj h).symm
  | some n =>
    change (asInt32? (int n)).map some = some y at h
    obtain ⟨m, hm, rfl⟩ := Option.map_eq_some_iff.mp h
    rw [eq_of_asInt?_int hm]

end StrongAuth.Json

namespace StrongAuth.Psu
open StrongAuth.Json

theorem toJson_isWritten (p : Psu) : p.toJson.isWritten = true := by
  apply record_isWritten
  simp [orNull_isWritten text_isWritten]

theorem ofJson?_toJson (p : Psu) : ofJson? p.toJson = some p := by
  unfold ofJson? toJson
  rw [fields?_record fieldNames 0 rfl (by decide)]
  simp only [Option.bind_eq_bind, Option.bind_some]
  rw [optional?_text (x := p.id) rfl, optional?_text (x := p.idType) rfl,
    optional?_text (x := p.corporateId) rfl, optional?_text (x := p.corporateIdType) rfl]
  rfl

end StrongAuth.Psu

namespace StrongAuth.Sca.Method
open StrongAuth.Json

theorem toJson_isWritten (m : Method) : m.toJson.isWritten = true := by
  apply record_isWritten
  simp [orNull_isWritten text_isWritten, text_isWritten, bool_isWritten]

theorem ofJson?_toJson (m : Method) : ofJson? m.toJson = some m := by
  unfold ofJson? toJson
  rw [fields?_record fieldNames 1 rfl (by decide)]
  simp only [Option.bind_eq_bind, Option.bind_some]
  rw [optional?_text (x := m.name) rfl, optional?_text (x := m.explanation) rfl]
  rfl

end StrongAuth.Sca.Method

namespace StrongAuth.Sca.Challenge
open StrongAuth.Json

theorem toJson_isWritten (c : Challenge) : c.toJson.isWritten = true := by
  apply record_isWritten
  have data : (Json.array (c.data.map text)).isWritten = true := by
    apply array_isWritten
    simp [text_isWritten]
  simp [orNull_isWritten text_isWritten, orNull_isWritten int_isWritten, data]

theorem asList?_texts (data : List String) :
    asList? asString? (.array (data.map text)) = some data := by
  change (data.map text).mapM asString? = some data
  induction data with
  | nil => rfl
  | cons s data ih => simp [asString?_text, ih]

theorem ofJson?_toJson {c : Challenge} (h : c.fits = true) : ofJson? c.toJson = some c := by
  have length : Fields.optional? [("data", Json.array (c.data.map text)),
      ("otpFormat", orNull text c.otpFormat), ("otpMaxLength", orNull int c.otpMaxLength),
      ("additionalInformation", orNull text c.information), ("imageLink", orNull text c.imageLink)]
      "otpMaxLength" asInt32? = some c.otpMaxLength := by
    refine optional?_orNull rfl (fun n limit => ?_) nofun
    have bounds : -2147483648 ≤ n ∧ n ≤ 2147483647 := by
      simpa [fits, Option.mem_def.mp limit] using h
    exact asInt32?_int bounds.1 bounds.2
  unfold ofJson? toJson
  rw [fields?_record fieldNames 0 rfl (by decide)]
  simp only [Option.bind_eq_bind, Option.bind_some]
  rw [optional?_text (x := c.otpFormat) rfl, optional?_text (x := c.information) rfl,
    optional?_text (x := c.imageLink) rfl, length]
  change Option.bind (asList? asString? (.array (c.data.map text))) _ = some c
  rw [asList?_texts]
  rfl

theorem eq_of_ofJson?_toJson {c d : Challenge} (h : ofJson? c.toJson = some d) : d = c := by
  unfold ofJson? toJson at h
  rw [fields?_record fieldNames 0 rfl (by decide)] at h
  simp only [Option.bind_eq_bind, Option.bind_some] at h
  rw [optional?_text (x := c.otpFormat) rfl, optional?_text (x := c.information) rfl,
    optional?_text (x := c.imageLink) rfl] at h
  obtain ⟨data, hd, h⟩ := Option.bind_eq_some_iff.mp h
  obtain ⟨format, hf, h⟩ := Option.bind_eq_some_iff.mp h
  obtain ⟨length, hl, h⟩ := Option.bind_eq_some_iff.mp h
  have sameData : c.data = data := Option.some.inj ((asList?_texts c.data).symm.trans hd)
  have sameFormat : c.otpFormat = format := Option.some.inj hf
  have sameLength : length = c.otpMaxLength := eq_of_optional?_int32 rfl hl
  cases h
  rw [← sameData, ← sameFormat, sameLength]

theorem fits_of_ofJson? {v : Json} {c : Challenge} (h : ofJson? v = some c) : c.fits = true := by
  unfold ofJson? at h
  obtain ⟨fields, -, h⟩ := Option.bind_eq_some_iff.mp h
  obtain ⟨data, -, h⟩ := Option.bind_eq_some_iff.mp h
  obtain ⟨format, -, h⟩ := Option.bind_eq_some_iff.mp h
  obtain ⟨length, limit, h⟩ := Option.bind_eq_some_iff.mp h
  obtain ⟨information, -, h⟩ := Option.bind_eq_some_iff.mp h
  obtain ⟨image, -, h⟩ := Option.bind_eq_some_iff.mp h
  cases h
  unfold Fields.optional? at limit
  split at limit
  · cases limit
    rfl
  · cases limit
    rfl
  · obtain ⟨n, number, rfl⟩ := Option.map_eq_some_iff.mp limit
    simpa [fits] using bounds_of_asInt? number

end StrongAuth.Sca.Challenge
