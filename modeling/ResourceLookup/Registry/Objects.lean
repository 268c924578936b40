import Std.Data.ExtTreeMap
import ResourceLookup.Text.Basic

/-!
# Objects

Objects belong to the application, not to the library: they come into being, report a type,
which may change, and die. An object is known by its identity, and no two objects ever share
one, so that what is recorded about a dead object can never be taken for a later one.
-/

namespace ResourceLookup

/-- The identity of an object. -/
abbrev ObjectId := Nat

/-- The objects of an application: the type that each living one reports, and the identity that
the next one gets. -/
structure Objects where
  types : Std.ExtTreeMap ObjectId Text compare
  next : ObjectId
  lt_next : ∀ o ∈ types, o < next

namespace Objects

/-- No objects yet. -/
def empty : Objects := ⟨∅, 0, fun _ h => absurd h Std.ExtTreeMap.not_mem_empty⟩

instance : Inhabited Objects := ⟨empty⟩

/-- A new object, and its identity. -/
def create (objects : Objects) (typeName : Text) : Objects × ObjectId :=
  ({ types := objects.types.insert objects.next typeName
     next := objects.next + 1
     lt_next := fun o h => by
      rcases Std.ExtTreeMap.mem_insert.1 h with same | h
      · rw [← Std.LawfulEqCmp.compare_eq_iff_eq.1 same]
        exact Nat.lt_succ_self _
      · exact Nat.lt_succ_of_lt (objects.lt_next o h) },
    objects.next)

/-- The death of an object. -/
def drop (objects : Objects) (o : ObjectId) : Objects where
  types := objects.types.erase o
  next := objects.next
  lt_next p h := objects.lt_next p (Std.ExtTreeMap.mem_erase.1 h).2

/-- The type that a living object reports. -/
def typeOf? (objects : Objects) (o : ObjectId) : Option Text := objects.types[o]?

/-- Whether an object lives. -/
def isAlive (objects : Objects) (o : ObjectId) : Bool := (objects.typeOf? o).isSome

theorem isAlive_eq_contains (objects : Objects) (o : ObjectId) :
    objects.isAlive o = objects.types.contains o := by
  rw [isAlive, typeOf?, Std.ExtTreeMap.isSome_getElem?_eq_contains]

/-- From now on a living object reports another type. -/
def setType (objects : Objects) (o : ObjectId) (typeName : Text) : Objects :=
  if h : o ∈ objects.types then
    { types := objects.types.insert o typeName
      next := objects.next
      lt_next := fun p hp => by
        rcases Std.ExtTreeMap.mem_insert.1 hp with same | hp
        · rw [← Std.LawfulEqCmp.compare_eq_iff_eq.1 same]
          exact objects.lt_next o h
        · exact objects.lt_next p hp }
  else objects

/-- Identities are given once: the next one is that of no living object. -/
theorem isAlive_next (objects : Objects) : objects.isAlive objects.next = false := by
  rw [isAlive_eq_contains, ← Bool.not_eq_true]
  exact fun h => Nat.lt_irrefl _ (objects.lt_next _ h)

@[simp] theorem isAlive_empty (o : ObjectId) : empty.isAlive o = false := by
  simp [isAlive, typeOf?, empty]

theorem isAlive_create (objects : Objects) (typeName : Text) (o : ObjectId) :
    (objects.create typeName).1.isAlive o = (o == objects.next || objects.isAlive o) := by
  simp only [isAlive, typeOf?, create, Std.ExtTreeMap.getElem?_insert]
  by_cases new : objects.next = o
  · simp [new]
  · have other : (o == objects.next) = false := by simpa using Ne.symm new
    simp [new, other]

theorem isAlive_drop (objects : Objects) (o p : ObjectId) :
    (objects.drop o).isAlive p = (p != o && objects.isAlive p) := by
  simp only [isAlive, typeOf?, drop, Std.ExtTreeMap.getElem?_erase]
  by_cases same : o = p
  · simp [same]
  · have other : (p != o) = true := by simpa using Ne.symm same
    simp [same, other]

end Objects

end ResourceLookup
