/-!
# Lines

A line ends at a feed, and a return directly in front of the feed belongs to the line end. What
follows the last feed is no ended line; it may be taken for a line without an end. The items may
be characters or bytes.
-/

namespace ResourceLookup.Lines

variable {α : Type} [DecidableEq α]

/-- A line without the return at its end. -/
def strip (carriage : α) (line : List α) : List α :=
  if line.getLast? = some carriage then line.dropLast else line

/-- The ended lines, without their line ends. -/
def ended (feed carriage : α) (items : List α) : List (List α) :=
  (items.splitOn feed).dropLast.map (strip carriage)

/-- What follows the last line end. -/
def last (feed : α) (items : List α) : List α := (items.splitOn feed).getLastD []

/-- All lines, with what follows the last line end unless it is empty. -/
def all (feed carriage : α) (items : List α) : List (List α) :=
  if (last feed items).isEmpty then ended feed carriage items
  else ended feed carriage items ++ [last feed items]

/-- Lines compose: a feed ends what is before it and starts anew. -/
theorem ended_append_feed (feed carriage : α) (before after : List α) :
    ended feed carriage (before ++ feed :: after) =
      (before.splitOn feed).map (strip carriage) ++ ended feed carriage after := by
  rw [ended, List.splitOn_append_cons_self,
    List.dropLast_append_of_ne_nil (List.splitOn_ne_nil feed after), List.map_append]
  rfl

theorem last_append_feed (feed : α) (before after : List α) :
    last feed (before ++ feed :: after) = last feed after := by
  rw [last, last, List.splitOn_append_cons_self, List.getLastD_eq_getLast?,
    List.getLast?_append, List.getLastD_eq_getLast?,
    List.getLast?_eq_some_getLast (List.splitOn_ne_nil feed after), Option.some_or]

end ResourceLookup.Lines
