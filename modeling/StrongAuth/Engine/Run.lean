import StrongAuth.Engine
import StrongAuth.Store.Contents

set_option autoImplicit false

/-!
# Runs

A run is any sequence of calls to the engine. Between the calls consents and payments may be added,
the store may begin or cease to fail, and the bank may change its mind about all that it will
answer. Every call has its own time, since clocks are not trusted to be in order.
-/
namespace StrongAuth
open StrongAuth.Calendar

/-- A change in how a store fails. The store in memory is told its errors, the tables are closed. -/
inductive Failure where
  | reads (error : Option StoreError)
  | nextUpdate (error : StoreError)
  | nextParentStatus (error : StoreError)
  | closed
  | reopened
  deriving DecidableEq, Repr

namespace Backend

def suffer : Failure → Backend → Backend
  | .reads e, .memory s => .memory { s with failReads := e }
  | .nextUpdate e, .memory s => .memory { s with failUpdate := some e }
  | .nextParentStatus e, .memory s => .memory { s with failParentStatus := some e }
  | .closed, b => b.close
  | .reopened, b => b.reopen
  | _, .tables s => .tables s

end Backend

inductive Event where
  | start (now : Instant) (request : StartRequest)
  | update (now : Instant) (request : UpdateRequest)
  | addConsent (draft : Consent.Draft)
  | addPayment (payment : Payment)
  | failure (change : Failure)
  | bank (desk : Bank.Desk) (script : Bank.Script)
  deriving Repr

structure Turn where
  request : UpdateRequest
  exchanges : List Bank.Exchange
  answer : Except EngineError Outcome

namespace Engine

/-- A start that halts has looked its parent up and done nothing else. -/
def storeAfterStart (c : Config) (now : Instant) (s : Backend) (r : StartRequest) : Backend :=
  match start c now s r with
  | .ok (_, s) => s
  | .error _ =>
    match resolve r.address with
    | .ok purpose => (purpose.findActiveParent s r.parentId).2
    | .error _ => s

def next (c : Config) (site : Site Backend) : Event → Site Backend
  | .start now r => { site with store := storeAfterStart c now site.store r }
  | .update now u => (update c now site u).2
  | .addConsent d => { site with store := (Store.insertConsent site.store d).2 }
  | .addPayment p => { site with store := (Store.insertPayment site.store p).2 }
  | .failure change => { site with store := site.store.suffer change }
  | .bank desk script => { site with bank := { site.bank with desk, script } }

def run (c : Config) : Site Backend → List Event → Site Backend
  | site, [] => site
  | site, e :: events => run c (next c site e) events

/-- The update, with the part of the bank's log that it wrote. -/
def turn (c : Config) (now : Instant) (site : Site Backend) (u : UpdateRequest) : Turn :=
  { request := u
    exchanges := (update c now site u).2.bank.log.drop site.bank.log.length
    answer := (update c now site u).1 }

def turnsOf (c : Config) (site : Site Backend) : Event → List Turn
  | .update now u => [turn c now site u]
  | _ => []

def turns (c : Config) : Site Backend → List Event → List Turn
  | _, [] => []
  | site, e :: events => turnsOf c site e ++ turns c (next c site e) events

theorem run_append (c : Config) (site : Site Backend) (before after : List Event) :
    run c site (before ++ after) = run c (run c site before) after := by
  induction before generalizing site with
  | nil => rfl
  | cons e before ih => exact ih (next c site e)

theorem run_append_cons (c : Config) (site : Site Backend) (early : List Event) (e : Event)
    (late : List Event) :
    run c site (early ++ e :: late) = run c (run c site (early ++ [e])) late := by
  rw [run_append, run_append c site early [e]]
  rfl

theorem turns_append (c : Config) (site : Site Backend) (before after : List Event) :
    turns c site (before ++ after) =
      turns c site before ++ turns c (run c site before) after := by
  induction before generalizing site with
  | nil => rfl
  | cons e before ih =>
    change turnsOf c site e ++ turns c (next c site e) (before ++ after) = _
    rw [ih, ← List.append_assoc]
    rfl

end Engine

end StrongAuth
