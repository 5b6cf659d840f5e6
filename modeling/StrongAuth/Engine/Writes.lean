import StrongAuth.Engine.Run
import StrongAuth.Store.Recorded

set_option autoImplicit false

namespace StrongAuth
open StrongAuth.Calendar StrongAuth.Store

def Event.target? : Event → Option (Purpose × String)
  | .start _ r => r.address.purpose?.map fun p => (p, r.parentId)
  | .update _ u => u.address.purpose?.map fun p => (p, u.parentId)
  | _ => none

def Store.Operation.savesOrderOf (i : String) : Operation → Bool
  | .saveOrder id _ => id == i
  | _ => false

namespace Engine

def startWrites (c : Config) (now : Instant) (s : Backend) (r : StartRequest) : List Operation :=
  match start c now (Recorded.start s) r with
  | .ok (_, s) => s.writes
  | .error _ =>
    match resolve r.address with
    | .ok purpose => (purpose.findActiveParent (Recorded.start s) r.parentId).2.writes
    | .error _ => []

/-- What an event asks the store to write. A change in how the store fails is no write. -/
def writesOf (c : Config) (site : Site Backend) : Event → List Operation
  | .start now r => startWrites c now site.store r
  | .update now u => (update c now { site with store := Recorded.start site.store } u).2.store.writes
  | .addConsent d => [.insertConsent d]
  | .addPayment p => [.insertPayment p]
  | .failure _ | .bank _ _ => []

def writes (c : Config) : Site Backend → List Event → List Operation
  | _, [] => []
  | site, e :: events => writesOf c site e ++ writes c (next c site e) events

end Engine

end StrongAuth
