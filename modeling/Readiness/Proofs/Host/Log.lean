import Readiness.Host.Client

/-!
# Host — keeping what passes between the program and the service

* `Host.logged` is the service with every exchange kept: a query and what it was answered with.
* `Host.watched` is the service with every call kept, also those that are no query.
* `Client.logged` is the launcher of the client with every run kept: a command line and how it
  ended.
* `Client.ask_logged`: a query to the service behind the client is one run of it; `run_of_ask` is
  the same, from the outcome of the query.
-/

namespace Readiness

variable {σ : Type}

/-- A query and what it was answered with. -/
abbrev Exchange := (q : HostQuery) × Except Trouble q.Answer

/-- The query was answered. -/
def Exchange.Succeeded (e : Exchange) : Prop := ∃ a, e.2 = .ok a

/-- The service, keeping every exchange, in order. -/
def Host.logged (h : Host σ) : Host (σ × List Exchange) where
  isAvailable s :=
    let (b, inner) := h.isAvailable s.1
    (b, inner, s.2)
  ask q s :=
    let (a, inner) := h.ask q s.1
    (a, inner, s.2 ++ [⟨q, a⟩])

/-- A call on the service. -/
inductive HostCall where
  | isAvailable
  | ask (q : HostQuery)
deriving DecidableEq, Repr

/-- The service, keeping every call, in order. -/
def Host.watched (h : Host σ) : Host (σ × List HostCall) where
  isAvailable s :=
    let (b, inner) := h.isAvailable s.1
    (b, inner, s.2 ++ [.isAvailable])
  ask q s :=
    let (a, inner) := h.ask q s.1
    (a, inner, s.2 ++ [.ask q])

theorem Host.ask_logged (h : Host σ) (q : HostQuery) (s : σ) (log : List Exchange) :
    h.logged.ask q (s, log) =
      ((h.ask q s).1, (h.ask q s).2, log ++ [⟨q, (h.ask q s).1⟩]) := rfl

namespace Client

/-- A run of the client: its command line and how it ended. -/
structure Run where
  arguments : List String
  ended : Except String Output

/-- A query and how the run for it ended. -/
structure Asked where
  query : HostQuery
  ended : Except String Output

/-- The run for a query. -/
def Asked.run (a : Asked) : Run := ⟨arguments a.query, a.ended⟩

/-- The launcher, keeping every run, in order. -/
def logged (launch : Launch σ) : Launch (σ × List Run) := fun args s =>
  let (o, inner) := launch args s.1
  (o, inner, s.2 ++ [⟨args, o⟩])

/-- A query to the service behind the client is one run of it. -/
theorem ask_logged (launch : Launch σ) (q : HostQuery) (s : σ) (runs : List Run) :
    (host (logged launch)).ask q (s, runs) =
      (interpret q (launch (arguments q) s).1, (launch (arguments q) s).2,
        runs ++ [⟨arguments q, (launch (arguments q) s).1⟩]) := rfl

/-- The answer to a query is what is made of one more run of the client. -/
theorem run_of_ask {launch : Launch σ} {q : HostQuery} {s s' : σ × List Run}
    {a : Except Trouble q.Answer} (h : (host (logged launch)).ask q s = (a, s')) :
    ∃ ended, interpret q ended = a ∧ s'.2 = s.2 ++ [Asked.run ⟨q, ended⟩] := by
  rw [ask_logged] at h
  cases h
  exact ⟨_, rfl, rfl⟩

end Client

end Readiness
