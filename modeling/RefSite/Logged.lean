import RefSite.Failure
import RefSite.Log

namespace RefSite

/-- Reports in order, and a result or a failure. What was reported before a failure stays. -/
structure Logged (α : Type) where
  log : List Log.Entry
  result : Except Failure α

namespace Logged

variable {α β : Type}

def ofResult (r : Except Failure α) : Logged α := ⟨[], r⟩

def fail (f : Failure) : Logged α := ⟨[], .error f⟩

def report (e : Log.Entry) : Logged Unit := ⟨[e], .ok ()⟩

/-- The second computation, given the result of the first; its reports come after. -/
def andThen (m : Logged α) (f : α → Logged β) : Logged β :=
  match m.result with
  | .error e => ⟨m.log, .error e⟩
  | .ok a => ⟨m.log ++ (f a).log, (f a).result⟩

instance : Monad Logged where
  pure a := ⟨[], .ok a⟩
  bind := andThen

theorem pure_def (a : α) : (pure a : Logged α) = ⟨[], .ok a⟩ := rfl

theorem bind_ok (l : List Log.Entry) (a : α) (f : α → Logged β) :
    ((⟨l, .ok a⟩ : Logged α) >>= f) = ⟨l ++ (f a).log, (f a).result⟩ := rfl

theorem bind_error (l : List Log.Entry) (e : Failure) (f : α → Logged β) :
    ((⟨l, .error e⟩ : Logged α) >>= f) = ⟨l, .error e⟩ := rfl

end Logged

end RefSite
