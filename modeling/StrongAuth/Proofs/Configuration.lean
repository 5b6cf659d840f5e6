import StrongAuth.Samples

set_option autoImplicit false

namespace StrongAuth
open StrongAuth.Calendar

theorem Calendar.Instant.after?_eq_some_iff {t : Instant} {l : Lifetime}
    (covered : t.isCovered = true) (whole : l.nanos = 0) (positive : 0 < l.seconds) :
    (∃ u, t.after? l = some u) ↔ l.seconds ≤ lastSecond - t.seconds := by
  simp only [isCovered, Bool.and_eq_true, decide_eq_true_eq] at covered
  unfold after?
  simp only [isCovered, Bool.and_eq_true, decide_eq_true_eq, t.seconds_plus whole positive]
  constructor
  · rintro ⟨u, reached⟩
    split at reached
    · omega
    · cases reached
  · intro short
    rw [if_pos (by omega)]
    exact ⟨_, rfl⟩

/-- What a variable says, or the default where it is not set or says nothing that can be used. -/
def Environment.setting {α : Type} (env : Environment) (name : String) (read : String → Option α)
    (default : α) : α :=
  ((env.find? name).bind read).getD default

namespace Config

variable {env : Environment} {c : Config}

/-- A positive number of 64 bits. -/
def seconds? (text : String) : Option Int :=
  (Text.signed? Text.leastInt64 Text.greatestInt64 text).filter (0 < ·)

/-- Each setting is what its variable says, or the default. -/
structure Reflects (c : Config) (env : Environment) : Prop where
  databaseUrl : c.databaseUrl = env.setting "XS2A_DATABASE_URL" some ({} : Config).databaseUrl
  maxConnections : c.maxConnections = env.setting "XS2A_DATABASE_MAX_CONNECTIONS"
    (Text.unsigned? Text.greatestUInt32) ({} : Config).maxConnections
  confirmationMandated : c.confirmationMandated =
    env.setting "XS2A_AUTHORISATION_CONFIRMATION_MANDATED" Flag.ofText?
      ({} : Config).confirmationMandated
  checksCodesLocally : c.checksCodesLocally = env.setting "XS2A_CONFIRMATION_CHECK_BY_XS2A"
    Flag.ofText? ({} : Config).checksCodesLocally
  defaultApproach : c.defaultApproach = env.setting "XS2A_DEFAULT_SCA_APPROACH"
    (fun text => (Keyword.read text).toOption) ({} : Config).defaultApproach
  lifetime : c.lifetime.seconds = env.setting "XS2A_AUTHORISATION_EXPIRY_SECS" seconds?
    ({} : Config).lifetime.seconds
  whole : c.lifetime.nanos = 0

theorem expirySeconds_eq (env : Environment) : expirySeconds env =
    env.setting "XS2A_AUTHORISATION_EXPIRY_SECS" seconds? ({} : Config).lifetime.seconds := by
  unfold expirySeconds Environment.setting
  cases env.find? "XS2A_AUTHORISATION_EXPIRY_SECS" with
  | none => rfl
  | some text =>
    simp only [Option.bind_some, seconds?]
    cases Text.signed? Text.leastInt64 Text.greatestInt64 text with
    | none => rfl
    | some n => by_cases positive : 0 < n <;>
        simp [Option.filter_some, positive, Lifetime.day]

theorem expirySeconds_pos (env : Environment) : 0 < expirySeconds env := by
  simp only [expirySeconds]
  split
  · split
    · assumption
    · decide
  · decide

theorem readApproach_eq (env : Environment) : readApproach env =
    env.setting "XS2A_DEFAULT_SCA_APPROACH" (fun text => (Keyword.read text).toOption)
      ({} : Config).defaultApproach := by
  unfold readApproach Environment.setting
  cases env.find? "XS2A_DEFAULT_SCA_APPROACH" with
  | none => rfl
  | some text =>
    simp only [Option.bind_some]
    cases (Keyword.read text : Except UnknownWord Sca.Approach) <;> rfl

theorem reflects_of_ofEnvironment (h : ofEnvironment env = .ok c) :
    c.Reflects env ∧ c.lifetime.seconds = expirySeconds env := by
  unfold ofEnvironment lifetimeOf at h
  cases fits : Lifetime.ofSeconds? (expirySeconds env) with
  | none =>
    rw [fits] at h
    cases h
  | some l =>
    rw [fits] at h
    cases h
    have parts : l.seconds = expirySeconds env ∧ l.nanos = 0 := by
      unfold Lifetime.ofSeconds? at fits
      split at fits
      · cases fits
        exact ⟨rfl, rfl⟩
      · cases fits
    refine ⟨⟨?_, rfl, rfl, rfl, readApproach_eq env, parts.1.trans (expirySeconds_eq env), parts.2⟩,
      parts.1⟩
    rw [Environment.setting, Option.bind_fun_some]

/-- The environment can be read unless its lifetime is longer than any time span. -/
theorem ofEnvironment_eq_error_iff {h : Halt} : ofEnvironment env = .error h ↔
    h = .lifetime ∧ longestLifetime < expirySeconds env := by
  have positive := expirySeconds_pos env
  have long := Lifetime.ofSeconds?_eq_none_iff (expirySeconds env)
  unfold ofEnvironment lifetimeOf
  cases fits : Lifetime.ofSeconds? (expirySeconds env) with
  | none =>
    have beyond : longestLifetime < expirySeconds env := by
      rcases long.mp fits with negative | beyond
      · have limit : 0 < longestLifetime := by decide
        omega
      · exact beyond
    constructor
    · rintro ⟨⟩
      exact ⟨rfl, beyond⟩
    · rintro ⟨rfl, -⟩
      rfl
  | some l =>
    constructor
    · rintro ⟨⟩
    · rintro ⟨-, beyond⟩
      rw [long.mpr (.inr beyond)] at fits
      cases fits

end Config

namespace Engine

variable {c : Config} {now : Instant}

theorem start_answers {σ : Type} [Store σ] {expiresAt : Instant}
    (reached : now.after? c.lifetime = some expiresAt) (s : σ) (r : StartRequest) :
    ∃ answer after, start c now s r = .ok (answer, after) := by
  have creates (s : σ) (p : Purpose) (approach : Sca.Approach) :
      ∃ answer after, create c now s p approach r = .ok (answer, after) := by
    unfold create
    simp only [reached]
    split <;> exact ⟨_, _, rfl⟩
  unfold start
  split
  · exact ⟨_, _, rfl⟩
  · split
    · exact ⟨_, _, rfl⟩
    · split
      · exact ⟨_, _, rfl⟩
      · exact ⟨_, _, rfl⟩
      · split
        · exact ⟨_, _, rfl⟩
        · exact ⟨_, _, rfl⟩
        · exact creates _ _ _

theorem start_halts (beyond : now.after? c.lifetime = none) :
    start c now Samples.site.store (.toPurpose .account "consent") = .error .expiry := by
  change create c now Samples.site.store .account c.defaultApproach _ = _
  unfold create
  rw [beyond]

theorem answers_iff (c : Config) (now : Instant) :
    (∀ (s : Backend) (r : StartRequest), ∃ answer after, start c now s r = .ok (answer, after)) ↔
      ∃ expiresAt, now.after? c.lifetime = some expiresAt := by
  constructor
  · intro answers
    cases reached : now.after? c.lifetime with
    | some expiresAt => exact ⟨expiresAt, rfl⟩
    | none =>
      obtain ⟨answer, after, started⟩ :=
        answers Samples.site.store (.toPurpose .account "consent")
      rw [start_halts reached] at started
      cases started
  · rintro ⟨expiresAt, reached⟩
    exact start_answers reached

/-- An environment gives a configuration that reflects it, has a positive lifetime and answers every
start, if and only if the lifetime that it asks for ends before the calendar does. -/
theorem environment_serves_iff (env : Environment) (now : Instant)
    (covered : now.isCovered = true) :
    (∃ c, Config.ofEnvironment env = .ok c ∧ c.Reflects env ∧ 0 < c.lifetime.seconds ∧
      ∀ (s : Backend) (r : StartRequest), ∃ answer after, start c now s r = .ok (answer, after)) ↔
      Config.expirySeconds env ≤ Instant.lastSecond - now.seconds := by
  have positive := Config.expirySeconds_pos env
  constructor
  · rintro ⟨c, read, -, -, answers⟩
    obtain ⟨reflects, seconds⟩ := Config.reflects_of_ofEnvironment read
    rw [← seconds] at positive ⊢
    exact (Instant.after?_eq_some_iff covered reflects.whole positive).mp
      ((answers_iff c now).mp answers)
  · intro short
    cases read : Config.ofEnvironment env with
    | error h =>
      obtain ⟨-, beyond⟩ := Config.ofEnvironment_eq_error_iff.mp read
      have fits : Instant.lastSecond - Instant.firstSecond ≤ longestLifetime := by decide
      simp only [Instant.isCovered, Bool.and_eq_true, decide_eq_true_eq] at covered
      omega
    | ok c =>
      obtain ⟨reflects, seconds⟩ := Config.reflects_of_ofEnvironment read
      rw [← seconds] at positive short
      refine ⟨c, rfl, reflects, positive, (answers_iff c now).mpr ?_⟩
      exact (Instant.after?_eq_some_iff covered reflects.whole positive).mpr short

/-- The greatest number of 64 bits is more than a time span can hold, and the greatest number that a
time span can hold is more than the calendar can. -/
theorem overlong_lifetime_halts :
    let greatest : Environment := [("XS2A_AUTHORISATION_EXPIRY_SECS", "9223372036854775807")]
    let longest : Environment := [("XS2A_AUTHORISATION_EXPIRY_SECS", "9223372036854775")]
    Config.ofEnvironment greatest = .error .lifetime ∧
      ∃ c, Config.ofEnvironment longest = .ok c ∧
        start c Samples.moment Samples.site.store (.toPurpose .account "consent") =
          .error .expiry := by
  intro greatest longest
  refine ⟨Config.ofEnvironment_eq_error_iff.mpr ⟨rfl, by decide⟩, _, rfl, ?_⟩
  exact start_halts (by decide)

theorem hour_serves :
    let env : Environment := [("XS2A_AUTHORISATION_EXPIRY_SECS", "3600")]
    ∃ c, Config.ofEnvironment env = .ok c ∧ c.Reflects env ∧ 0 < c.lifetime.seconds ∧
      ∀ (s : Backend) (r : StartRequest),
        ∃ answer after, start c Samples.moment s r = .ok (answer, after) := by
  intro env
  exact (environment_serves_iff env Samples.moment rfl).mpr (by decide)

end Engine

end StrongAuth
