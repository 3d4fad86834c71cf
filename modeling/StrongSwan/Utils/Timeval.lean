import Mathlib

/-!
# Times

* `Timeval`, `timevalCmp`, `timeradd`.
* `timevalCmp_le_iff`, `timevalCmp_lt_iff`: times are compared lexicographically.
-/

namespace StrongSwan

structure Timeval where
  sec : ℤ
  usec : ℕ
  deriving DecidableEq

/-- Compare two timevals, return >0 if a > b, <0 if a < b and =0 if equal. -/
def timevalCmp (a b : Timeval) : ℤ :=
  if a.sec > b.sec then 1
  else if a.sec < b.sec then -1
  else if a.usec > b.usec then 1
  else if a.usec < b.usec then -1
  else 0

def timeradd (a b : Timeval) : Timeval :=
  if a.usec + b.usec ≥ 1000000 then ⟨a.sec + b.sec + 1, a.usec + b.usec - 1000000⟩
  else ⟨a.sec + b.sec, a.usec + b.usec⟩

/-- Times, ordered by seconds first. -/
def Timeval.key (this : Timeval) : ℤ ×ₗ ℕ := toLex (this.sec, this.usec)

theorem timevalCmp_le_iff {a b : Timeval} : timevalCmp a b ≤ 0 ↔ a.key ≤ b.key := by
  rw [Timeval.key, Timeval.key, Prod.Lex.toLex_le_toLex, timevalCmp]
  dsimp only
  split_ifs <;> omega

theorem timevalCmp_lt_iff {a b : Timeval} : timevalCmp a b < 0 ↔ a.key < b.key := by
  rw [Timeval.key, Timeval.key, Prod.Lex.toLex_lt_toLex, timevalCmp]
  dsimp only
  split_ifs <;> omega

theorem timevalCmp_gt_iff {a b : Timeval} : timevalCmp a b > 0 ↔ b.key < a.key := by
  rw [← not_le (a := a.key), ← timevalCmp_le_iff, gt_iff_lt, not_le]

end StrongSwan
