import StrongAuth.Engine.Writes
import StrongAuth.Proofs.Engine.Changes

set_option autoImplicit false

namespace StrongAuth
open StrongAuth.Calendar StrongAuth.Store

variable {σ : Type} [Store σ] {base : σ}

namespace Purpose

/-- What is written when a parent is looked up: the order of a payment that had none. -/
def lookupWrites (p : Purpose) (s : σ) (id : String) : List Operation :=
  match p, Store.payment s id with
  | .cancellation, .ok (some q) =>
    if q.isMaterialised then []
    else match q.orderOf with
      | .ok order => [.saveOrder id order]
      | .error _ => []
  | _, _ => []

theorem lookupWrites_cases (p : Purpose) (s : σ) (i : String) : p.lookupWrites s i = [] ∨
    ∃ q order, p = .cancellation ∧ Store.payment s i = .ok (some q) ∧ q.order = none ∧
      q.orderOf = .ok order ∧ p.lookupWrites s i = [.saveOrder i order] := by
  unfold lookupWrites
  split
  · next q found =>
    cases ordered : q.order with
    | some order => exact .inl (by simp [Payment.isMaterialised, ordered])
    | none =>
      cases spelt : q.orderOf with
      | error e => exact .inl (by simp [Payment.isMaterialised, ordered])
      | ok order =>
        exact .inr ⟨q, order, rfl, found, ordered, spelt, by simp [Payment.isMaterialised, ordered]⟩
  · exact .inl rfl

theorem saved_by_lookup {p : Purpose} {s : σ} {i j : String} {op : Operation}
    (written : op ∈ p.lookupWrites s i) (saves : op.savesOrderOf j = true) :
    p = .cancellation ∧ i = j := by
  rcases p.lookupWrites_cases s i with silent | ⟨q, order, rfl, -, -, -, writes⟩
  · rw [silent] at written
    cases written
  · rw [writes] at written
    obtain rfl := List.mem_singleton.mp written
    exact ⟨rfl, by simpa [Operation.savesOrderOf] using saves⟩

theorem findOrderedPayment_silent {s after : σ} {i : String} {q : Payment}
    (silent : cancellation.lookupWrites s i = [])
    (found : findOrderedPayment s i = (.ok (some q), after)) :
    Store.payment s i = .ok (some q) ∧ q.isMaterialised = true := by
  unfold findOrderedPayment at found
  unfold lookupWrites at silent
  cases read : Store.payment s i with
  | error e =>
    rw [read] at found
    cases found
  | ok answer =>
    cases answer with
    | none =>
      rw [read] at found
      cases found
    | some r =>
      simp only [read] at found silent
      cases ordered : r.isMaterialised with
      | true =>
        rw [ordered] at found
        cases found
        exact ⟨rfl, ordered⟩
      | false =>
        cases spelt : r.orderOf with
        | error e =>
          rw [ordered, spelt] at found
          cases found
        | ok order =>
          rw [ordered, spelt] at silent
          cases silent

theorem findOrderedPayment_recorded (s : Recorded base) (id : String) :
    ((findOrderedPayment s id).1, (findOrderedPayment s id).2.store) =
        findOrderedPayment s.store id ∧
      (findOrderedPayment s id).2.writes = s.writes ++ cancellation.lookupWrites s.store id := by
  have same : Store.payment s id = Store.payment s.store id := rfl
  unfold findOrderedPayment lookupWrites
  rw [same]
  cases Store.payment s.store id with
  | error e => exact ⟨rfl, (List.append_nil _).symm⟩
  | ok found =>
    cases found with
    | none => exact ⟨rfl, (List.append_nil _).symm⟩
    | some q =>
      cases kept : q.isMaterialised with
      | true => simp [kept]
      | false =>
        cases spelt : q.orderOf with
        | error e => simp [kept, spelt]
        | ok order =>
          have saved : ((Store.saveOrder s id order).1, (Store.saveOrder s id order).2.store) =
              Store.saveOrder s.store id order := rfl
          have writes : (Store.saveOrder s id order).2.writes =
              s.writes ++ [.saveOrder id order] := rfl
          simp only [kept, spelt, ← saved, Bool.false_eq_true, if_false]
          generalize Store.saveOrder s id order = written at writes
          obtain ⟨answer, after⟩ := written
          cases answer <;> exact ⟨rfl, writes⟩

theorem findParent_recorded (p : Purpose) (s : Recorded base) (id : String) :
    ((p.findParent s id).1, (p.findParent s id).2.store) = p.findParent s.store id ∧
      (p.findParent s id).2.writes = s.writes ++ p.lookupWrites s.store id := by
  cases p with
  | account | initiation => exact ⟨rfl, (List.append_nil _).symm⟩
  | cancellation =>
    obtain ⟨same, writes⟩ := findOrderedPayment_recorded s id
    refine ⟨?_, writes⟩
    simp only [findParent, ← same]

theorem findActiveParent_recorded (p : Purpose) (s : Recorded base) (id : String) :
    ((p.findActiveParent s id).1, (p.findActiveParent s id).2.store) =
        p.findActiveParent s.store id ∧
      (p.findActiveParent s id).2.writes = s.writes ++ p.lookupWrites s.store id := by
  obtain ⟨same, writes⟩ := p.findParent_recorded s id
  refine ⟨?_, writes⟩
  simp only [findActiveParent, ← same]

theorem persist_recorded (p : Purpose) (s : Recorded base) (a : Attempt) (o : Outcome) :
    ((p.persist s a o).1, (p.persist s a o).2.store) = p.persist s.store a o ∧
      (p.persist s a o).2.writes =
        s.writes ++ [.updateAuthorisation a.authorisationId a.version (p.updateOf a o)] := by
  have wrote :
      ((Store.updateAuthorisation s a.authorisationId a.version (p.updateOf a o)).1,
        (Store.updateAuthorisation s a.authorisationId a.version (p.updateOf a o)).2.store) =
      Store.updateAuthorisation s.store a.authorisationId a.version (p.updateOf a o) := rfl
  have writes :
      (Store.updateAuthorisation s a.authorisationId a.version (p.updateOf a o)).2.writes =
        s.writes ++ [.updateAuthorisation a.authorisationId a.version (p.updateOf a o)] := rfl
  simp only [persist, ← wrote]
  generalize Store.updateAuthorisation s a.authorisationId a.version (p.updateOf a o) = written
    at writes
  obtain ⟨answer, after⟩ := written
  cases answer <;> exact ⟨rfl, writes⟩

end Purpose

def Site.plain (site : Site (Recorded base)) : Site σ :=
  { store := site.store.store, bank := site.bank }

/-- What is done with the notes is what is done without them, and these writes are noted. -/
structure Notes {α : Type} (site : Site (Recorded base)) (plain : α × Site σ)
    (recorded : α × Site (Recorded base)) (writes : List Operation) : Prop where
  same : (recorded.1, recorded.2.plain) = plain
  writes : recorded.2.store.writes = site.store.writes ++ writes

namespace Attempt

variable {a : Attempt} {p : Purpose} {site : Site (Recorded base)}

def LooksUp (a : Attempt) (p : Purpose) (site : Site (Recorded base)) (plain : Outcome × Site σ)
    (recorded : Outcome × Site (Recorded base)) : Prop :=
  ∃ looked, (looked = [] ∨ looked = p.lookupWrites site.store.store a.parentId) ∧
    Notes site plain recorded looked

theorem looksUp_of_store {plain : Outcome × Site σ} {recorded : Outcome × Site (Recorded base)}
    (store : recorded.2.store = site.store) (same : (recorded.1, recorded.2.plain) = plain) :
    LooksUp a p site plain recorded := by
  refine ⟨[], .inl rfl, same, ?_⟩
  rw [store, List.append_nil]

theorem withParent_looksUp {next : Parent → Site σ → Outcome × Site σ}
    {next' : Parent → Site (Recorded base) → Outcome × Site (Recorded base)}
    (unwritten : ∀ parent site, (next' parent site).2.store = site.store ∧
      ((next' parent site).1, (next' parent site).2.plain) = next parent site.plain) :
    LooksUp a p site (a.withParent p site.plain next) (a.withParent p site next') := by
  obtain ⟨found, writes⟩ := p.findParent_recorded site.store a.parentId
  refine ⟨_, .inr rfl, ?_⟩
  simp only [withParent, Site.plain, ← found]
  generalize p.findParent site.store a.parentId = looked at writes
  obtain ⟨answer, after⟩ := looked
  cases answer with
  | error e => exact ⟨rfl, writes⟩
  | ok parent =>
    cases parent with
    | none => exact ⟨rfl, writes⟩
    | some parent =>
      obtain ⟨store, same⟩ := unwritten parent ⟨after, site.bank⟩
      refine ⟨same, ?_⟩
      simp only [store]
      exact writes

theorem identify_looksUp : LooksUp a p site (a.identify p site.plain) (a.identify p site) := by
  unfold identify
  split
  · exact looksUp_of_store rfl rfl
  · refine withParent_looksUp fun parent site => ?_
    simp only [Site.plain]
    split
    · split <;> exact ⟨rfl, rfl⟩
    · exact ⟨rfl, rfl⟩

theorem authenticate_looksUp :
    LooksUp a p site (a.authenticate p site.plain) (a.authenticate p site) := by
  unfold authenticate
  cases a.password with
  | none => exact looksUp_of_store rfl rfl
  | some password =>
    refine withParent_looksUp fun parent site => ?_
    simp only [Site.plain, offerMethods]
    split
    · split <;> exact ⟨rfl, rfl⟩
    · exact ⟨rfl, rfl⟩
    · exact ⟨rfl, rfl⟩
    · exact ⟨rfl, rfl⟩

theorem chooseMethod_looksUp :
    LooksUp a p site (a.chooseMethod p site.plain) (a.chooseMethod p site) := by
  unfold chooseMethod
  cases a.methodId with
  | none => exact looksUp_of_store rfl rfl
  | some methodId =>
    refine withParent_looksUp fun parent site => ?_
    simp only [Site.plain, startMethod]
    split
    · exact ⟨rfl, rfl⟩
    · split
      · split <;> exact ⟨rfl, rfl⟩
      · exact ⟨rfl, rfl⟩

theorem verify_looksUp : LooksUp a p site (a.verify p site.plain) (a.verify p site) := by
  unfold verify
  cases a.data with
  | none => exact looksUp_of_store rfl rfl
  | some data =>
    refine withParent_looksUp fun parent site => ?_
    simp only [Site.plain]
    split <;> exact ⟨rfl, rfl⟩

theorem conclude_looksUp (c : Config) :
    LooksUp a p site (a.conclude c p site.plain) (a.conclude c p site) := by
  unfold conclude
  split
  · exact looksUp_of_store rfl rfl
  · refine withParent_looksUp fun parent site => ?_
    have asked : p.finalise site.plain a.context parent = p.finalise site a.context parent := rfl
    rw [asked]
    split <;> exact ⟨rfl, rfl⟩

theorem step_looksUp (c : Config) : LooksUp a p site (a.step c p site.plain) (a.step c p site) := by
  have current : LooksUp a p site (a.currentStep c p site.plain) (a.currentStep c p site) := by
    unfold currentStep
    cases a.status with
    | received => exact identify_looksUp
    | psuIdentified => exact authenticate_looksUp
    | psuAuthenticated => exact chooseMethod_looksUp
    | methodSelected => exact verify_looksUp
    | started => exact conclude_looksUp c
    | finalised | failed | exempted => exact looksUp_of_store rfl rfl
  obtain ⟨looked, shape, same, writes⟩ := current
  refine ⟨looked, shape, ?_, writes⟩
  simp only [step, ← same]

theorem confirmAtBank_looksUp (code : Secret) :
    LooksUp a p site (a.confirmAtBank p code site.plain) (a.confirmAtBank p code site) := by
  obtain ⟨found, writes⟩ := p.findParent_recorded site.store a.parentId
  refine ⟨_, .inr rfl, ?_⟩
  simp only [confirmAtBank, Site.plain, ← found]
  generalize p.findParent site.store a.parentId = looked at writes
  obtain ⟨answer, after⟩ := looked
  cases answer with
  | error e => exact ⟨rfl, writes⟩
  | ok parent =>
    cases parent with
    | none => exact ⟨rfl, writes⟩
    | some parent =>
      simp only
      split <;> exact ⟨rfl, writes⟩

theorem confirm_looksUp (c : Config) (checker : CodeChecker) :
    LooksUp a p site (a.confirm c p checker site.plain) (a.confirm c p checker site) := by
  unfold confirm
  split
  · exact looksUp_of_store rfl rfl
  · split
    · exact looksUp_of_store rfl rfl
    · split
      · exact looksUp_of_store rfl rfl
      · cases a.givenCode with
        | none => exact looksUp_of_store rfl rfl
        | some code =>
          match checker with
          | .local => exact looksUp_of_store rfl rfl
          | .bank => exact confirmAtBank_looksUp code

end Attempt

/-- What a call for this purpose and parent writes: what its lookup writes, and one authorisation if
it comes to that. Before anything is added, an active parent was found. -/
inductive CallWrites (p : Purpose) (s : σ) (i : String) : List Operation → Prop where
  | looked {looked : List Operation} (lookup : looked = [] ∨ looked = p.lookupWrites s i) :
      CallWrites p s i looked
  | updated {looked : List Operation} {id : String} {version : Int} {u : Authorisation.Update}
      (lookup : looked = [] ∨ looked = p.lookupWrites s i) :
      CallWrites p s i (looked ++ [.updateAuthorisation id version u])
  | opened {d : Authorisation.Draft} {parent : Parent} {after : σ} (purpose : d.purpose = p)
      (child : d.parentId = i) (found : p.findActiveParent s i = (.ok (some parent), after)) :
      CallWrites p s i (p.lookupWrites s i ++ [.insertAuthorisation d])

def AddressWrites (address : Address) (s : σ) (i : String) (ws : List Operation) : Prop :=
  ws = [] ∨ ∃ p, address.purpose? = some p ∧ CallWrites p s i ws

/-- Only the calls for a cancellation save an order, and only that of its payment. -/
theorem CallWrites.saved {p : Purpose} {s : σ} {i j : String} {ws : List Operation} {op : Operation}
    (writes : CallWrites p s i ws) (written : op ∈ ws) (saves : op.savesOrderOf j = true) :
    p = .cancellation ∧ i = j := by
  have looks {looked : List Operation} (lookup : looked = [] ∨ looked = p.lookupWrites s i)
      (written : op ∈ looked) : p = .cancellation ∧ i = j := by
    rcases lookup with rfl | rfl
    · cases written
    · exact Purpose.saved_by_lookup written saves
  cases writes with
  | looked lookup => exact looks lookup written
  | updated lookup =>
    rcases List.mem_append.mp written with written | written
    · exact looks lookup written
    · obtain rfl := List.mem_singleton.mp written
      cases saves
  | opened =>
    rcases List.mem_append.mp written with written | written
    · exact looks (.inr rfl) written
    · obtain rfl := List.mem_singleton.mp written
      cases saves

theorem AddressWrites.saved {address : Address} {s : σ} {i j : String} {ws : List Operation}
    {op : Operation} (writes : AddressWrites address s i ws) (written : op ∈ ws)
    (saves : op.savesOrderOf j = true) :
    (address.purpose?.map fun p => (p, i)) = some (.cancellation, j) := by
  rcases writes with rfl | ⟨p, served, writes⟩
  · cases written
  · obtain ⟨rfl, rfl⟩ := writes.saved written saves
    rw [served]
    rfl

namespace Engine

variable {p : Purpose} {a : Attempt} {site : Site (Recorded base)}

theorem record_notes (site : Site (Recorded base)) (p : Purpose) (a : Attempt) (o : Outcome) :
    ∃ written, (written = [] ∨
        written = [.updateAuthorisation a.authorisationId a.version (p.updateOf a o)]) ∧
      Notes site (record site.plain p a o) (record site p a o) written := by
  unfold record
  cases a.status.isTerminal with
  | true => exact ⟨[], .inl rfl, rfl, (List.append_nil _).symm⟩
  | false =>
    obtain ⟨wrote, writes⟩ := p.persist_recorded site.store a o
    refine ⟨_, .inr rfl, ?_⟩
    simp only [Site.plain, ← wrote, Bool.false_eq_true, if_false]
    generalize p.persist site.store a o = persisted at writes
    obtain ⟨answer, after⟩ := persisted
    cases answer <;> exact ⟨rfl, writes⟩

theorem recorded_writes {o : Outcome} {reached : Site (Recorded base)}
    {plain : Outcome × Site σ} (looks : a.LooksUp p site plain (o, reached)) :
    ∃ ws, CallWrites p site.store.store a.parentId ws ∧
      Notes site (record plain.2 p a plain.1) (record reached p a o) ws := by
  obtain ⟨looked, lookup, rfl, writes⟩ := looks
  obtain ⟨written, update, same, writes'⟩ := record_notes reached p a o
  refine ⟨looked ++ written, ?_, same, ?_⟩
  · rcases update with rfl | rfl
    · rw [List.append_nil]
      exact .looked lookup
    · exact .updated lookup
  · rw [writes', writes, List.append_assoc]

theorem advance_writes (c : Config) (site : Site (Recorded base)) (p : Purpose) (a : Attempt) :
    ∃ ws, CallWrites p site.store.store a.parentId ws ∧
      Notes site (advance c site.plain p a) (advance c site p a) ws := by
  unfold advance
  split
  · exact recorded_writes (a.confirm_looksUp c _)
  · split
    · exact ⟨[], .looked (.inl rfl), rfl, (List.append_nil _).symm⟩
    · exact recorded_writes (a.step_looksUp c)

theorem update_writes (c : Config) (now : Instant) (site : Site (Recorded base))
    (u : UpdateRequest) : ∃ ws, AddressWrites u.address site.store.store u.parentId ws ∧
      Notes site (update c now site.plain u) (update c now site u) ws := by
  have silent {x : Except EngineError Outcome} : Notes site (x, site.plain) (x, site) [] :=
    ⟨rfl, (List.append_nil _).symm⟩
  unfold update
  split
  · exact ⟨[], .inl rfl, silent⟩
  · next purpose served =>
    have fits : findFor site.plain.store purpose u = findFor site.store purpose u := rfl
    rw [fits]
    split
    · exact ⟨[], .inl rfl, silent⟩
    · next stored found =>
      obtain ⟨-, child, rfl⟩ := findFor_eq_ok_iff.mp found
      simp only
      split
      · exact ⟨[], .inl rfl, silent⟩
      · split
        · exact ⟨[], .inl rfl, silent⟩
        · obtain ⟨ws, writes, same, noted⟩ :=
            advance_writes c site stored.purpose (.of u stored)
          refine ⟨ws, .inr ⟨stored.purpose, resolve_eq_ok_iff.mp served, ?_⟩, ?_, noted⟩
          · rw [← child]
            exact writes
          · rw [← same]

/-- What may halt does so with and without notes, or it answers the same, and these are the writes. -/
inductive NotesHalting {α : Type} (s : Recorded base) (writes : List Operation → Prop) :
    Except Halt (α × σ) → Except Halt (α × Recorded base) → Prop where
  | halted {halt : Halt} : NotesHalting s writes (.error halt) (.error halt)
  | answered {x : α} {after : Recorded base} {ws : List Operation}
      (noted : after.writes = s.writes ++ ws) (shape : writes ws) :
      NotesHalting s writes (.ok (x, after.store)) (.ok (x, after))

theorem create_notes (c : Config) (now : Instant) {s after : Recorded base} {p : Purpose}
    (approach : Sca.Approach) {r : StartRequest} {parent : Parent}
    (served : r.address.purpose? = some p)
    (found : p.findActiveParent s.store r.parentId = (.ok (some parent), after.store))
    (looked : after.writes = s.writes ++ p.lookupWrites s.store r.parentId) :
    NotesHalting s (AddressWrites r.address s.store r.parentId)
      (create c now after.store p approach r) (create c now after p approach r) := by
  unfold create
  cases now.after? c.lifetime with
  | none => exact .halted
  | some expiresAt =>
    generalize draft : Authorisation.Draft.mk r.parentId p approach r.psu expiresAt = d
    have shape : AddressWrites r.address s.store r.parentId
        (p.lookupWrites s.store r.parentId ++ [.insertAuthorisation d]) := by
      rw [← draft]
      exact .inr ⟨p, served, .opened rfl rfl found⟩
    have wrote : ((Store.insertAuthorisation after d).1,
        (Store.insertAuthorisation after d).2.store) =
          Store.insertAuthorisation after.store d := rfl
    have writes : (Store.insertAuthorisation after d).2.writes =
        s.writes ++ (p.lookupWrites s.store r.parentId ++ [.insertAuthorisation d]) := by
      rw [← List.append_assoc, ← looked]
      rfl
    simp only [draft, ← wrote]
    generalize Store.insertAuthorisation after d = written at writes
    obtain ⟨answer, last⟩ := written
    cases answer <;> exact .answered writes shape

theorem start_notes (c : Config) (now : Instant) (s : Recorded base) (r : StartRequest) :
    NotesHalting s (AddressWrites r.address s.store r.parentId) (start c now s.store r)
      (start c now s r) := by
  have silent {x : Except EngineError Authorisation} :
      NotesHalting s (AddressWrites r.address s.store r.parentId) (.ok (x, s.store))
        (.ok (x, s)) :=
    .answered (List.append_nil _).symm (.inl rfl)
  unfold start
  split
  · exact silent
  · next p served =>
    split
    · exact silent
    · next approach _ =>
      obtain ⟨found, writes⟩ := p.findActiveParent_recorded s r.parentId
      have shape : AddressWrites r.address s.store r.parentId
          (p.lookupWrites s.store r.parentId) :=
        .inr ⟨p, resolve_eq_ok_iff.mp served, .looked (.inr rfl)⟩
      rw [← found]
      generalize p.findActiveParent s r.parentId = looked at found writes
      obtain ⟨answer, after⟩ := looked
      cases answer with
      | error e => exact .answered writes shape
      | ok parent =>
        cases parent with
        | none => exact .answered writes shape
        | some parent =>
          have authorised : isAuthorised after.store p parent r.parentId =
              isAuthorised after p parent r.parentId := rfl
          simp only [authorised]
          split
          · exact .answered writes shape
          · exact .answered writes shape
          · exact create_notes c now approach (resolve_eq_ok_iff.mp served) found.symm writes

end Engine

def EventWrites (s : Backend) : Event → List Operation → Prop
  | .start _ r, ws => AddressWrites r.address s r.parentId ws
  | .update _ u, ws => AddressWrites u.address s u.parentId ws
  | .addConsent d, ws => ws = [.insertConsent d]
  | .addPayment q, ws => ws = [.insertPayment q]
  | .failure _, ws | .bank _ _, ws => ws = []

namespace Engine

theorem startWrites_spec (c : Config) (now : Instant) (s : Backend) (r : StartRequest) :
    AddressWrites r.address s r.parentId (startWrites c now s r) ∧
      storeAfterStart c now s r = performed s (startWrites c now s r) := by
  have notes : NotesHalting (Recorded.start s) (AddressWrites r.address s r.parentId)
      (start c now s r) (start c now (Recorded.start s) r) :=
    start_notes c now (Recorded.start s) r
  unfold startWrites storeAfterStart
  generalize start c now s r = plain at notes
  generalize start c now (Recorded.start s) r = recorded at notes
  cases notes with
  | @answered x after ws noted shape =>
    refine ⟨?_, after.replayed⟩
    simp only [noted]
    exact shape
  | halted =>
    cases served : resolve r.address with
    | error e => exact ⟨.inl rfl, rfl⟩
    | ok p =>
      obtain ⟨found, writes⟩ := p.findActiveParent_recorded (Recorded.start s) r.parentId
      refine ⟨.inr ⟨p, resolve_eq_ok_iff.mp served, .looked (.inr writes)⟩, ?_⟩
      exact (congrArg Prod.snd found).symm.trans (Recorded.replayed _)

theorem updateWrites_spec (c : Config) (now : Instant) (site : Site Backend) (u : UpdateRequest) :
    AddressWrites u.address site.store u.parentId (writesOf c site (.update now u)) ∧
      (update c now site u).2.store = performed site.store (writesOf c site (.update now u)) := by
  obtain ⟨ws, shape, same, writes⟩ :=
    update_writes c now { site with store := Recorded.start site.store } u
  refine ⟨?_, ?_⟩
  · rw [writesOf, writes]
    exact shape
  · exact (congrArg (fun x => x.2.store) same).symm.trans (Recorded.replayed _)

theorem writesOf_shape (c : Config) (site : Site Backend) (e : Event) :
    EventWrites site.store e (writesOf c site e) := by
  cases e with
  | start now r => exact (startWrites_spec c now site.store r).1
  | update now u => exact (updateWrites_spec c now site u).1
  | addConsent | addPayment | failure | bank => rfl

/-- Whatever an event does to the store it does by these writes, unless it makes the store fail. -/
theorem next_store (c : Config) (site : Site Backend) {e : Event}
    (quiet : ∀ change, e ≠ .failure change) :
    (next c site e).store = performed site.store (writesOf c site e) := by
  cases e with
  | start now r => exact (startWrites_spec c now site.store r).2
  | update now u => exact (updateWrites_spec c now site u).2
  | addConsent | addPayment | bank => rfl
  | failure change => exact absurd rfl (quiet change)

theorem target_of_saved {c : Config} {site : Site Backend} {e : Event} {i : String}
    {op : Operation} (written : op ∈ writesOf c site e) (saves : op.savesOrderOf i = true) :
    e.target? = some (.cancellation, i) := by
  have shape := writesOf_shape c site e
  cases e with
  | start now r => exact AddressWrites.saved shape written saves
  | update now u => exact AddressWrites.saved shape written saves
  | addConsent | addPayment =>
    obtain rfl := List.mem_singleton.mp written
    cases saves
  | failure | bank => cases written

end Engine

end StrongAuth
