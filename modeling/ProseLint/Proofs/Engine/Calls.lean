import Mathlib.Tactic
import ProseLint.Engine

/-!
# Calls to a distributor

A run makes its calls one after another and goes on whatever they answer. So what becomes of a
distributor depends on the sequence of calls alone. A recording distributor passes every call on
and writes it down; it shows the sequence that it has received.
-/
namespace ProseLint

/-- A call to a distributor. -/
inductive Call where
  | begin
  | report (f : Finding)
  | finish
  deriving DecidableEq, Repr

namespace Call

/-- The calls that report some findings: a begin, one report for each of them, an end. -/
def session (fs : List Finding) : List Call := .begin :: fs.map .report ++ [.finish]

end Call

namespace Distributor

variable {σ : Type}

/-- Make one call. -/
def make (out : Distributor σ) : Call → σ → Except Text Unit × σ
  | .begin => out.begin
  | .report f => out.report f
  | .finish => out.finish

/-- The state behind some calls, each made whatever the calls before it have answered. -/
def after (out : Distributor σ) (calls : List Call) (state : σ) : σ :=
  calls.foldl (fun state call => (out.make call state).2) state

@[simp] theorem after_nil (out : Distributor σ) (state : σ) : out.after [] state = state := rfl

@[simp] theorem after_cons (out : Distributor σ) (call : Call) (calls : List Call) (state : σ) :
    out.after (call :: calls) state = out.after calls (out.make call state).2 := rfl

@[simp] theorem after_append (out : Distributor σ) (calls calls' : List Call) (state : σ) :
    out.after (calls ++ calls') state = out.after calls' (out.after calls state) :=
  List.foldl_append

/-- The distributor that passes each call on, with its answer, and writes it down. -/
def recorded (out : Distributor σ) : Distributor (σ × List Call) where
  begin s := let r := out.begin s.1; (r.1, r.2, s.2 ++ [.begin])
  report f s := let r := out.report f s.1; (r.1, r.2, s.2 ++ [.report f])
  finish s := let r := out.finish s.1; (r.1, r.2, s.2 ++ [.finish])

theorem make_recorded (out : Distributor σ) (call : Call) (s : σ × List Call) :
    out.recorded.make call s =
      ((out.make call s.1).1, (out.make call s.1).2, s.2 ++ [call]) := by
  cases call <;> rfl

/-- A record holds the calls that have been made, no more and no less. -/
theorem after_recorded (out : Distributor σ) (calls : List Call) (s : σ × List Call) :
    out.recorded.after calls s = (out.after calls s.1, s.2 ++ calls) := by
  induction calls generalizing s with
  | nil => simp
  | cons call calls ih => simp [ih, make_recorded]

end Distributor
end ProseLint
