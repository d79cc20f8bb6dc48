import BackupClient.Time.Instant

/-!
Timers.

A timer runs for a length of time from a moment on.  The clock that it goes by holds no moment after its
last one, and a timer that would have to run beyond it runs for thirty years instead.  Moments and lengths
are in nanoseconds.
-/

namespace BackupClient.Timer

/-- The last moment of a clock that was at zero in the beginning. -/
def lastMoment : Nat :=
  Nat.pow 2 63 * nanosPerSecond - 1

def farFuture : Nat :=
  30 * 365 * 24 * 60 * 60 * nanosPerSecond

/-- The moment at which a timer is over that begins now. -/
def ending (last now length : Nat) : Nat :=
  if now + length ≤ last then now + length else now + farFuture

theorem ending_of_le {last now length : Nat} (held : now + length ≤ last) :
    ending last now length = now + length :=
  if_pos held

theorem ending_of_lt {last now length : Nat} (beyond : last < now + length) :
    ending last now length = now + farFuture :=
  if_neg (Nat.not_le_of_lt beyond)

theorem ending_cases (last now length : Nat) :
    now + length ≤ last ∧ ending last now length = now + length ∨
      last < now + length ∧ ending last now length = now + farFuture := by
  rcases Nat.lt_or_ge last (now + length) with beyond | held
  · exact .inr ⟨beyond, ending_of_lt beyond⟩
  · exact .inl ⟨held, ending_of_le held⟩

theorem le_ending (last now length : Nat) : now ≤ ending last now length := by
  rcases ending_cases last now length with ⟨-, same⟩ | ⟨-, same⟩
  · rw [same]
    exact Nat.le_add_right now length
  · rw [same]
    exact Nat.le_add_right now farFuture

theorem lt_ending {length : Nat} (positive : 0 < length) (last now : Nat) :
    now < ending last now length := by
  rcases ending_cases last now length with ⟨-, same⟩ | ⟨-, same⟩
  · rw [same]
    exact Nat.lt_add_of_pos_right positive
  · rw [same]
    exact Nat.lt_add_of_pos_right (by decide)

end BackupClient.Timer
