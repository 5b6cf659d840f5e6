import Mathlib.Data.List.Basic
import StrongAuth.Json.Orders

set_option autoImplicit false

namespace StrongAuth

namespace Json

theorem keys_of_known? {names : List String} {members : List (Option String × Json)}
    {fields : Fields} (known : known? names members = some fields) :
    members.all (·.1.isSome) = true := by
  unfold known? at known
  split at known
  · assumption
  · cases known

theorem known?_filter {names : List String} {members : List (Option String × Json)}
    {keep : Option String × Json → Bool} (keys : members.all (·.1.isSome) = true)
    (asked : ∀ m ∈ members, (fieldOf? names m).isSome = true → keep m = true) :
    known? names (members.filter keep) = known? names members := by
  have kept : (members.filter keep).all (·.1.isSome) = true := by
    rw [List.all_eq_true] at keys ⊢
    exact fun m hm => keys m (List.mem_of_mem_filter hm)
  have found : (members.filter keep).filterMap (fieldOf? names) =
      members.filterMap (fieldOf? names) := by
    rw [List.filterMap_filter]
    refine List.filterMap_congr fun m hm => ?_
    split
    · rfl
    · next left =>
      refine (Option.eq_none_iff_forall_ne_some.mpr fun field given => left (asked m hm ?_)).symm
      rw [given]
      rfl
  simp only [known?, keys, kept, found]

end Json

namespace StandingOrder

theorem not_isOwn {m : Option String × Json}
    (asked : (Json.fieldOf? Transfer.fieldNames m).isSome = true) : isOwn m = false := by
  obtain ⟨_ | name, v⟩ := m
  · rfl
  · have apart : ∀ name ∈ Transfer.fieldNames, fieldNames.contains name = false := by decide
    refine apart name (Classical.byContradiction fun other => ?_)
    simp [Json.fieldOf?, other] at asked

/-- The value is an object that gives the terms of the order, and all in it that is not among them
can be set aside. -/
inductive HasTerms (depth : Nat) (s : StandingOrder) : Json → Prop where
  | intro {members : List (Option String × Json)} {fields : Json.Fields}
      (known : Json.known? fieldNames members = some fields)
      (startDate : fields.required? "startDate" Json.asDate? = some s.startDate)
      (endDate : fields.optional? "endDate" Json.asDate? = some s.endDate)
      (executionRule : fields.optional? "executionRule" Json.asString? = some s.executionRule)
      (frequency : fields.required? "frequency" Json.asString? = some s.frequency)
      (dayOfExecution : fields.optional? "dayOfExecution" Json.asString? = some s.dayOfExecution)
      (others : ∀ m ∈ members, isOwn m = false → m.2.isBufferable depth = true) :
      HasTerms depth s (.object members)

theorem transfer_of_others {members : List (Option String × Json)}
    (keys : members.all (·.1.isSome) = true) :
    Transfer.ofJson? (.object (members.filter fun m => !isOwn m)) =
      Transfer.ofJson? (.object members) := by
  have known : Json.known? Transfer.fieldNames (members.filter fun m => !isOwn m) =
      Json.known? Transfer.fieldNames members :=
    Json.known?_filter keys fun m _ asked => by rw [not_isOwn asked]; rfl
  exact congrArg (Option.bind · Transfer.ofFields?) known

theorem ofJson?_eq_some_iff {depth : Nat} {v : Json} {s : StandingOrder} :
    ofJson? depth v = some s ↔ Transfer.ofJson? v = some s.transfer ∧ s.HasTerms depth v := by
  constructor
  · intro read
    cases v with
    | object members =>
      simp only [ofJson?, Option.bind_eq_bind, Option.bind_eq_some_iff,
        Option.ite_none_right_eq_some] at read
      obtain ⟨fields, known, others, transfer, aside, startDate, starts, endDate, ends, rule, ruled,
        frequency, repeats, day, falls, made⟩ := read
      obtain rfl := Option.some.inj made
      rw [transfer_of_others (Json.keys_of_known? known)] at aside
      refine ⟨aside, .intro known starts ends ruled repeats falls fun m hm other => ?_⟩
      exact List.all_eq_true.mp others m (List.mem_filter.mpr ⟨hm, by rw [other]; rfl⟩)
    | null | bool | number | string | array => cases read
  · rintro ⟨transfer, terms⟩
    cases terms with
    | @intro members fields known starts ends ruled repeats falls others =>
      rw [← transfer_of_others (Json.keys_of_known? known)] at transfer
      have aside : (members.filter fun m => !isOwn m).all (fun m => m.2.isBufferable depth) =
          true := by
        rw [List.all_eq_true]
        intro m hm
        obtain ⟨hm, other⟩ := List.mem_filter.mp hm
        exact others m hm (by simpa using other)
      simp only [ofJson?, Option.bind_eq_bind, known, Option.bind_some, aside, if_true, transfer,
        starts, ends, ruled, repeats, falls]

end StandingOrder

namespace Order

theorem ofPayload?_eq_some_iff {kind : Kind} {payload : List UInt8} {o : Order} :
    ofPayload? kind payload = some o ↔
      ∃ v, Json.ofBytes? payload = some v ∧ ofBody? 1 kind v = some o :=
  Option.bind_eq_some_iff

/-- A payload is read as a standing order exactly if it is read as its transfer alone, and gives the
terms of the order, with nothing else in it that could not be set aside. -/
theorem periodic_iff_single_with_terms (payload : List UInt8) (o : Order) :
    ofPayload? .periodic payload = some o ↔
      ∃ s, o = .periodic s ∧ ofPayload? .single payload = some (.single s.transfer) ∧
        ∃ v, Json.ofBytes? payload = some v ∧ s.HasTerms 1 v := by
  constructor
  · intro accepted
    obtain ⟨v, spelt, body⟩ := ofPayload?_eq_some_iff.mp accepted
    obtain ⟨s, read, rfl⟩ := Option.map_eq_some_iff.mp body
    obtain ⟨transfer, terms⟩ := StandingOrder.ofJson?_eq_some_iff.mp read
    refine ⟨s, rfl, ?_, v, spelt, terms⟩
    exact ofPayload?_eq_some_iff.mpr ⟨v, spelt, congrArg (Option.map Order.single) transfer⟩
  · rintro ⟨s, rfl, single, v, spelt, terms⟩
    obtain ⟨v', spelt', body⟩ := ofPayload?_eq_some_iff.mp single
    obtain rfl := Option.some.inj (spelt.symm.trans spelt')
    obtain ⟨t, transfer, same⟩ := Option.map_eq_some_iff.mp body
    cases same
    have read := StandingOrder.ofJson?_eq_some_iff.mpr ⟨transfer, terms⟩
    exact ofPayload?_eq_some_iff.mpr ⟨v, spelt, congrArg (Option.map Order.periodic) read⟩

theorem monthly_order_accepted :
    let payload := Text.bytes ("\x7b\"startDate\":\"2030-01-31\",\"debtorAccount\":\x7b\x7d," ++
      "\"instructedAmount\":\x7b\"currency\":\"EUR\",\"amount\":\"1\"\x7d," ++
      "\"creditorAccount\":\x7b\x7d,\"creditorName\":\"W\",\"frequency\":\"Monthly\"\x7d")
    ∃ s, ofPayload? .periodic payload = some (.periodic s) ∧
      ofPayload? .single payload = some (.single s.transfer) := by
  intro payload
  have accepted : (ofPayload? .periodic payload).isSome = true := by decide +kernel
  obtain ⟨o, read⟩ := Option.isSome_iff_exists.mp accepted
  obtain ⟨s, rfl, single, -⟩ := (periodic_iff_single_with_terms payload o).mp read
  exact ⟨s, read, single⟩

/-- A number beyond every double is skipped in a transfer, but it cannot be set aside. -/
example :
    let standing (exponent : List Char) := Json.record [
      ("startDate", Json.text "2030-01-31"), ("debtorAccount", .array [.null, .null, .null, .null]),
      ("note", .number { negative := false, whole := ['1'], exponent := some (false, exponent) }),
      ("frequency", Json.text "Monthly"), ("creditorAccount", Account.toJson {}), ("note", .null),
      ("instructedAmount", Money.toJson ⟨"EUR", "15.00"⟩), ("creditorName", Json.text "WBG")]
    let readAs (kind : Kind) (exponent : List Char) := (ofBody? 1 kind (standing exponent)).isSome
    readAs .single ['3', '0', '8'] ∧ readAs .periodic ['3', '0', '8'] ∧
      readAs .single ['3', '0', '9'] ∧ readAs .periodic ['3', '0', '9'] = false := by
  decide +kernel

end Order
end StrongAuth
