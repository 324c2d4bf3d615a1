import HttpRouting.Time.Duration

/-!
# The clock of a run

The clock starts at zero and moves in whole milliseconds, its ticks.  Moments
are counted in nanoseconds; whoever waits for a moment wakes at the first tick
that is not before it.
-/

namespace HttpRouting

structure Moment where
  nanos : Nat
  deriving DecidableEq, Repr

namespace Moment

def ofTick (tick : Nat) : Moment := ⟨tick * Duration.nanosPerMilli⟩

/-- The first tick that is not before the moment. -/
def tick (m : Moment) : Nat :=
  (m.nanos + (Duration.nanosPerMilli - 1)) / Duration.nanosPerMilli

/-- Moments are kept as signed 64-bit seconds of a clock that was running for
less than a day longer than this one; later ones cannot be written down. -/
def limit : Nat := (UInt64.size / 2 - 86400) * Duration.nanosPerSecond

def later? (m : Moment) (d : Duration) : Option Moment :=
  if m.nanos + d.nanos < limit then some ⟨m.nanos + d.nanos⟩ else none

def timeTo (m later : Moment) : Duration := ⟨later.nanos - m.nanos⟩

theorem tick_ofTick (n : Nat) : (ofTick n).tick = n := by
  simp only [ofTick, tick, Duration.nanosPerMilli]
  omega

theorem tick_le_iff {m : Moment} {n : Nat} :
    m.tick ≤ n ↔ m.nanos ≤ (ofTick n).nanos := by
  simp only [ofTick, tick, Duration.nanosPerMilli]
  omega

theorem tick_mono {m m' : Moment} (h : m.nanos ≤ m'.nanos) : m.tick ≤ m'.tick := by
  simp only [tick, Duration.nanosPerMilli]
  omega

end Moment

structure Deadline where
  due : Moment
  after : Duration
  deriving DecidableEq, Repr

def Deadline.remaining (d : Deadline) (now : Moment) : Duration := now.timeTo d.due

end HttpRouting
