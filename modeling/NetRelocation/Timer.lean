/-!
# Timers

A timer says how long a wait lasts that is to take some time. The timer of the program keeps every
time up to thirty years and never waits longer.
-/

namespace NetRelocation

/-- How long a wait lasts that is to take so many milliseconds. -/
abbrev Timer : Type := Nat → Nat

namespace Timer

/-- A wait lasts as long as it is to. -/
def exact : Timer := fun ms => ms

/-- Thirty years of 365 days. -/
def longestMs : Nat := 30 * 365 * 24 * 60 * 60 * 1000

/-- A wait lasts as long as it is to, but no longer than thirty years. -/
def limited : Timer := fun ms => min ms longestMs

end Timer

end NetRelocation
