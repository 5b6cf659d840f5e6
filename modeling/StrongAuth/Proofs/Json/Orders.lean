import StrongAuth.Json.Orders
import StrongAuth.Proofs.Calendar.Dates
import StrongAuth.Proofs.Json.Records

set_option autoImplicit false

namespace StrongAuth

namespace Json

theorem asDate?_dateJson (d : Calendar.Date) : asDate? (dateJson d) = some d :=
  Calendar.Date.ofText?_text d

theorem optional?_date {fields : Fields} {name : String} {x : Option Calendar.Date}
    (there : fields.find? name = some (orNull dateJson x)) :
    fields.optional? name asDate? = some x :=
  optional?_orNull there (fun d _ => asDate?_dateJson d) fun d => text_ne_null d.text

theorem dateJson_isWritten (d : Calendar.Date) : (dateJson d).isWritten = true := rfl

theorem asList?_map {α : Type} {encode : α → Json} {decode? : Json → Option α}
    (decodes : ∀ a, decode? (encode a) = some a) (items : List α) :
    asList? decode? (.array (items.map encode)) = some items := by
  change (items.map encode).mapM decode? = some items
  induction items with
  | nil => rfl
  | cons a items ih => simp [decodes, ih]

theorem text_isBufferable (s : String) {depth : Nat} (room : depth < 100) :
    (text s).isBufferable depth = true := by
  simp [isBufferable, text, isSound, height, deepestNesting]
  omega

theorem orNull_isBufferable {α : Type} {encode : α → Json} {depth : Nat} (room : depth < 100)
    (h : ∀ a, (encode a).isBufferable depth = true) (x : Option α) :
    (orNull encode x).isBufferable depth = true := by
  cases x with
  | some a => exact h a
  | none =>
    simp [orNull, isBufferable, isSound, height, deepestNesting]
    omega

theorem record_isBufferable {members : List (String × Json)} {depth : Nat} (room : depth < 100)
    (h : ∀ m ∈ members, m.2.isBufferable (depth + 1) = true) :
    (record members).isBufferable depth = true := by
  have fits : membersSound Numeral.fitsDouble (members.map fun m => (some m.1, m.2)) = true ∧
      depth + 1 + membersHeight (members.map fun m => (some m.1, m.2)) ≤ deepestNesting := by
    induction members with
    | nil =>
      refine ⟨rfl, ?_⟩
      simp only [List.map_nil, membersHeight, deepestNesting]
      omega
    | cons m members ih =>
      have first := h m List.mem_cons_self
      obtain ⟨sound, low⟩ := ih fun x hx => h x (List.mem_cons_of_mem _ hx)
      simp only [isBufferable, Bool.and_eq_true, decide_eq_true_eq] at first
      refine ⟨?_, ?_⟩
      · simp [membersSound, first.1, sound]
      · simp only [List.map_cons, membersHeight]
        omega
  simp only [record, isBufferable, isSound, height, Bool.and_eq_true, decide_eq_true_eq]
  exact ⟨fits.1, by omega⟩

end Json

namespace Account
open StrongAuth.Json

theorem toJson_isWritten (a : Account) : a.toJson.isWritten = true := by
  apply record_isWritten
  simp [orNull_isWritten text_isWritten]

theorem ofJson?_toJson (a : Account) : ofJson? a.toJson = some a := by
  unfold ofJson? toJson
  rw [fields?_record fieldNames 0 rfl (by decide)]
  simp only [Option.bind_eq_bind, Option.bind_some]
  rw [optional?_text (x := a.iban) rfl, optional?_text (x := a.bban) rfl,
    optional?_text (x := a.pan) rfl, optional?_text (x := a.currency) rfl]
  rfl

theorem toJson_isBufferable (a : Account) {depth : Nat} (room : depth < 90) :
    a.toJson.isBufferable depth = true := by
  apply record_isBufferable (by omega)
  have field (x : Option String) : (orNull text x).isBufferable (depth + 1) = true :=
    orNull_isBufferable (by omega) (fun s => text_isBufferable s (by omega)) x
  simp [field]

end Account

namespace Money
open StrongAuth.Json

theorem toJson_isWritten (m : Money) : m.toJson.isWritten = true := by
  apply record_isWritten
  simp [text_isWritten]

theorem ofJson?_toJson (m : Money) : ofJson? m.toJson = some m := by
  unfold ofJson? toJson
  rw [fields?_record fieldNames 0 rfl (by decide)]
  rfl

theorem toJson_isBufferable (m : Money) {depth : Nat} (room : depth < 90) :
    m.toJson.isBufferable depth = true := by
  apply record_isBufferable (by omega)
  have field (s : String) : (text s).isBufferable (depth + 1) = true :=
    text_isBufferable s (by omega)
  simp [field]

end Money

namespace Transfer
open StrongAuth.Json

theorem members_isWritten (t : Transfer) : ∀ m ∈ t.members, m.2.isWritten = true := by
  simp [members, orNull_isWritten text_isWritten, orNull_isWritten dateJson_isWritten,
    text_isWritten, Account.toJson_isWritten, Money.toJson_isWritten]

theorem toJson_isWritten (t : Transfer) : t.toJson.isWritten = true :=
  record_isWritten t.members_isWritten

theorem ofFields?_members (t : Transfer) : ofFields? t.members = some t := by
  have debtor : Fields.required? t.members "debtorAccount" Account.ofJson? = some t.debtor :=
    Account.ofJson?_toJson t.debtor
  have amount : Fields.required? t.members "instructedAmount" Money.ofJson? = some t.amount :=
    Money.ofJson?_toJson t.amount
  have creditor : Fields.required? t.members "creditorAccount" Account.ofJson? = some t.creditor :=
    Account.ofJson?_toJson t.creditor
  have creditorName : Fields.required? t.members "creditorName" asString? = some t.creditorName :=
    rfl
  unfold ofFields?
  rw [optional?_text (x := t.endToEndId) rfl, debtor, amount, creditor,
    optional?_text (x := t.creditorAgent) rfl, creditorName, optional?_text (x := t.remittance) rfl,
    optional?_date (x := t.executionDate) rfl]
  rfl

theorem ofJson?_toJson (t : Transfer) : ofJson? t.toJson = some t := by
  unfold ofJson? toJson
  rw [fields?_record fieldNames 0 rfl (by decide)]
  exact t.ofFields?_members

theorem members_areBufferable (t : Transfer) {depth : Nat} (room : depth < 90) :
    ∀ m ∈ t.members, m.2.isBufferable depth = true := by
  have plain (s : String) : (text s).isBufferable depth = true := text_isBufferable s (by omega)
  have texts (x : Option String) : (orNull text x).isBufferable depth = true :=
    orNull_isBufferable (by omega) plain x
  have dates (x : Option Calendar.Date) : (orNull dateJson x).isBufferable depth = true :=
    orNull_isBufferable (by omega) (fun d => show (dateJson d).isBufferable depth = true from
      plain d.text) x
  simp [members, plain, texts, dates, t.debtor.toJson_isBufferable room,
    t.creditor.toJson_isBufferable room, t.amount.toJson_isBufferable room]

end Transfer

namespace StandingOrder
open StrongAuth.Json

def ownMembers (s : StandingOrder) : List (String × Json) :=
  [("startDate", dateJson s.startDate),
    ("endDate", orNull dateJson s.endDate),
    ("executionRule", orNull text s.executionRule),
    ("frequency", text s.frequency),
    ("dayOfExecution", orNull text s.dayOfExecution)]

theorem members_eq (s : StandingOrder) : s.members = s.transfer.members ++ s.ownMembers := rfl

theorem toJson_isWritten (s : StandingOrder) : s.toJson.isWritten = true := by
  apply record_isWritten
  have own : ∀ m ∈ s.ownMembers, m.2.isWritten = true := by
    simp [ownMembers, dateJson_isWritten, orNull_isWritten dateJson_isWritten,
      orNull_isWritten text_isWritten, text_isWritten]
  intro m hm
  rw [members_eq] at hm
  rcases List.mem_append.mp hm with hm | hm
  · exact s.transfer.members_isWritten m hm
  · exact own m hm

theorem known?_members (s : StandingOrder) :
    known? fieldNames (s.members.map fun m => (some m.1, m.2)) = some s.ownMembers := by
  have keys : (s.members.map fun m => (some m.1, m.2)).all (·.1.isSome) = true := by
    simp [List.all_map]
  have found : (s.members.map fun m => (some m.1, m.2)).filterMap (fieldOf? fieldNames) =
      s.ownMembers := rfl
  have distinct : (s.ownMembers.map (·.1)).Nodup := by
    change fieldNames.Nodup
    decide
  simp only [known?, keys, if_true]
  rw [found, if_pos distinct]

theorem others_eq (s : StandingOrder) :
    (s.members.map fun m => (some m.1, m.2)).filter (fun m => !isOwn m) =
      s.transfer.members.map fun m => (some m.1, m.2) := rfl

theorem ofJson?_toJson (s : StandingOrder) {depth : Nat} (room : depth < 90) :
    ofJson? depth s.toJson = some s := by
  have fit : (s.transfer.members.map fun m => (some m.1, m.2)).all
      (fun m => m.2.isBufferable depth) = true := by
    rw [List.all_map, List.all_eq_true]
    exact s.transfer.members_areBufferable room
  have transfer : Transfer.ofJson? (.object (s.transfer.members.map fun m => (some m.1, m.2))) =
      some s.transfer := s.transfer.ofJson?_toJson
  have startDate : Fields.required? s.ownMembers "startDate" asDate? = some s.startDate :=
    asDate?_dateJson s.startDate
  have frequency : Fields.required? s.ownMembers "frequency" asString? = some s.frequency := rfl
  unfold ofJson? toJson record
  simp only [Option.bind_eq_bind, s.known?_members, Option.bind_some, s.others_eq, fit, if_true,
    transfer, startDate, frequency]
  rw [optional?_date (x := s.endDate) rfl, optional?_text (x := s.executionRule) rfl,
    optional?_text (x := s.dayOfExecution) rfl]
  rfl

end StandingOrder

namespace Batch
open StrongAuth.Json

theorem toJson_isWritten (b : Batch) : b.toJson.isWritten = true := by
  apply record_isWritten
  have transfers : (array (b.transfers.map Transfer.toJson)).isWritten = true := by
    apply array_isWritten
    simp [Transfer.toJson_isWritten]
  simp [orNull_isWritten bool_isWritten, orNull_isWritten dateJson_isWritten,
    Account.toJson_isWritten, transfers]

theorem ofJson?_toJson (b : Batch) : ofJson? b.toJson = some b := by
  have bools (x : Bool) : Json.bool x ≠ .null := nofun
  unfold ofJson? toJson
  rw [fields?_record fieldNames 0 rfl (by decide)]
  simp only [Option.bind_eq_bind, Option.bind_some]
  rw [optional?_orNull (x := b.batchBooking) rfl (fun _ _ => rfl) bools]
  change Option.bind (Account.ofJson? b.debtor.toJson) _ = some b
  rw [Account.ofJson?_toJson, Option.bind_some, optional?_date (x := b.executionDate) rfl]
  change Option.bind (asList? Transfer.ofJson? (.array (b.transfers.map Transfer.toJson))) _ = some b
  rw [asList?_map Transfer.ofJson?_toJson]
  rfl

end Batch

namespace Order
open StrongAuth.Json

theorem ofTag?_tag (k : Kind) : ofTag? (tag k) = some k := by
  cases k <;> rfl

theorem body_isWritten (o : Order) : o.body.isWritten = true := by
  cases o with
  | single t => exact t.toJson_isWritten
  | periodic s => exact s.toJson_isWritten
  | bulk b => exact b.toJson_isWritten

theorem toJson_isWritten (o : Order) : o.toJson.isWritten = true := by
  apply record_isWritten
  simp [text_isWritten, body_isWritten]

theorem ofBody?_body (o : Order) {depth : Nat} (room : depth < 90) :
    ofBody? depth o.kind o.body = some o := by
  cases o with
  | single t => exact congrArg (Option.map Order.single) t.ofJson?_toJson
  | periodic s => exact congrArg (Option.map Order.periodic) (s.ofJson?_toJson room)
  | bulk b => exact congrArg (Option.map Order.bulk) b.ofJson?_toJson

/-- Every order is read back from its stored form. -/
theorem ofJson?_toJson (o : Order) : ofJson? o.toJson = some o := by
  have body : ofBody? 2 o.kind o.body = some o := o.ofBody?_body (by decide)
  have known : known? ["type", "payment"]
      [(some "type", text (tag o.kind)), (some "payment", o.body)] =
        some [("type", text (tag o.kind)), ("payment", o.body)] := rfl
  have kind : Fields.required? [("type", text (tag o.kind)), ("payment", o.body)] "type"
      kindOfJson? = some o.kind := ofTag?_tag o.kind
  have found : Fields.find? [("type", text (tag o.kind)), ("payment", o.body)] "payment" =
      some o.body := rfl
  have typeFirst : isBodyFirst [(some "type", text (tag o.kind)), (some "payment", o.body)] =
      false := rfl
  unfold ofJson? toJson record
  simp only [List.map_cons, List.map_nil, Option.bind_eq_bind, known, Option.bind_some, kind, found,
    typeFirst, Bool.false_and, Bool.false_eq_true, if_false, body]

end Order

end StrongAuth
