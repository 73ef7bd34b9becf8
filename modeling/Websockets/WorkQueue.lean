import Websockets.Basic

/-!
# `CWorkQueue`

The callback queue of a client or a server: the critical sections of `Post` and `Stop`, and the one
in which the worker takes the next function. Running that function is the worker's own step.
-/

namespace Websockets

structure CWorkQueue (F : Type) where
  mQueue : List F := []
  mStopped : Bool := false
  deriving DecidableEq

namespace CWorkQueue

variable {F : Type}

def post (q : CWorkQueue F) (fn : F) : CWorkQueue F :=
  if q.mStopped then q else { q with mQueue := q.mQueue ++ [fn] }

def stop (q : CWorkQueue F) : CWorkQueue F := { q with mQueue := [], mStopped := true }

/-- The worker's critical section: the next function and the queue without it. -/
def next (q : CWorkQueue F) : Option (F × CWorkQueue F) :=
  if q.mStopped then none
  else match q.mQueue with
    | [] => none
    | fn :: rest => some (fn, { q with mQueue := rest })

end CWorkQueue

end Websockets
