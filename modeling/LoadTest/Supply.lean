/-!
Fresh ids, drawn one after the other from a supply.
-/

namespace LoadTest

/-- The ids that may be drawn, and how many have been. -/
structure Supply where
  id : Nat → String
  used : Nat

/-- A computation that may draw ids. -/
abbrev Fresh := StateM Supply

/-- The next id. -/
def Supply.draw : Fresh String :=
  modifyGet fun s => (s.id s.used, { s with used := s.used + 1 })

theorem Supply.draw_run (s : Supply) :
    Supply.draw.run s = (s.id s.used, { s with used := s.used + 1 }) := rfl

end LoadTest
