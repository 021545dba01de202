import PushButton.Text.Numeral

/-!
# JSON values

A JSON value keeps integers of any size apart from floating-point numbers, and an object keeps its
fields in order. An object that is read holds each key once: a repeated key gives the last value in
the place of the first.
-/

namespace PushButton

/-- A JSON value. -/
inductive Json where
  /-- The value `null`. -/
  | null
  /-- A truth value. -/
  | bool (value : Bool)
  /-- A number written without a point and without an exponent. -/
  | int (value : Int)
  /-- Any other number. -/
  | float (value : Float)
  /-- A text. -/
  | text (value : Text)
  /-- A list of values. -/
  | array (items : List Json)
  /-- Keys with values, in order. -/
  | object (fields : List (Text × Json))
deriving Repr, Inhabited

namespace Json

/-- The fields with a value put under a key: a present key keeps its place, a new one comes last. -/
def put {α : Type} (key : Text) (value : α) : List (Text × α) → List (Text × α)
  | [] => [(key, value)]
  | (k, v) :: rest => if k = key then (k, value) :: rest else (k, v) :: put key value rest

/-- The value under a key. -/
def lookup {α : Type} (key : Text) : List (Text × α) → Option α
  | [] => none
  | (k, v) :: rest => if k = key then some v else lookup key rest

/-- The fields in order of writing, each key once. -/
def collect {α : Type} (fields : List (Text × α)) : List (Text × α) :=
  fields.foldl (fun acc (k, v) => put k v acc) []

theorem lookup_put {α : Type} (key k : Text) (value : α) (fields : List (Text × α)) :
    lookup k (put key value fields) = if key = k then some value else lookup k fields := by
  induction fields with
  | nil => simp [put, lookup]
  | cons f rest ih =>
    obtain ⟨j, v⟩ := f
    rw [put]
    split
    · next hj =>
      subst hj
      simp only [lookup]
      split <;> rfl
    · next hj =>
      simp only [lookup, ih]
      by_cases hjk : j = k
      · subst hjk
        simp [Ne.symm hj]
      · simp [hjk]

/-- The value of a field of an object. -/
def field? (name : Text) : Json → Option Json
  | .object fields => lookup name fields
  | _ => none

end Json

end PushButton
