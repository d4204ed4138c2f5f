import Mathlib.Data.List.Induction
import Mathlib.Logic.Basic

/-!
# The latest entry of a log

Of the entries of a log that concern one thing, each overrides the ones before it.

* `latest` — the fold that keeps what the last such entry says.
* `latest_of_split`, `latest_of_forall_not` — its value, by the place of that entry.
* `exists_last` — a log has a last such entry, or none.
-/

universe u v

namespace Log

open List

variable {α : Type u} {β : Type v} (p : α → Prop) [DecidablePred p] (f : α → Option β)

/-- What the last entry with `p` says, and `old` if there is none. -/
def latest (old : Option β) (log : List α) : Option β :=
  log.foldl (fun old a => if p a then f a else old) old

variable {p f}

theorem latest_cons (old : Option β) (a : α) (log : List α) :
    latest p f old (a :: log) = latest p f (if p a then f a else old) log := rfl

theorem latest_append (old : Option β) (log log' : List α) :
    latest p f old (log ++ log') = latest p f (latest p f old log) log' :=
  foldl_append

theorem latest_of_forall_not {log : List α} (h : ∀ a ∈ log, ¬p a) (old : Option β) :
    latest p f old log = old := by
  induction log with
  | nil => rfl
  | cons a log ih =>
    rw [latest_cons, if_neg (h a mem_cons_self)]
    exact ih fun b hb => h b (mem_cons_of_mem a hb)

theorem latest_of_split {before after : List α} {a : α} (ha : p a) (hafter : ∀ b ∈ after, ¬p b)
    (old : Option β) : latest p f old (before ++ a :: after) = f a := by
  rw [latest_append, latest_cons, if_pos ha, latest_of_forall_not hafter]

omit [DecidablePred p] in
/-- No entry has `p`, or there is a last one. -/
theorem exists_last (p : α → Prop) (log : List α) :
    (∀ a ∈ log, ¬p a) ∨
      ∃ before a after, log = before ++ a :: after ∧ p a ∧ ∀ b ∈ after, ¬p b := by
  induction log with
  | nil => exact .inl fun a ha => by cases ha
  | cons a log ih =>
    rcases ih with hnone | ⟨before, b, after, rfl, hb, hafter⟩
    · by_cases ha : p a
      · exact .inr ⟨[], a, log, rfl, ha, hnone⟩
      · refine .inl fun b hb => ?_
        rcases mem_cons.mp hb with rfl | hb
        · exact ha
        · exact hnone b hb
    · exact .inr ⟨a :: before, b, after, rfl, hb, hafter⟩

end Log
