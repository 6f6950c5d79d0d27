/-!
Message headers: a finite map from strings to strings. The entries are kept in ascending order of
their keys, so two bags with the same contents are equal.
-/

set_option autoImplicit false

namespace EventPipeline

namespace Entries

abbrev Ascending (entries : List (String × String)) : Prop :=
  entries.Pairwise fun a b => a.1 < b.1

def put (key value : String) : List (String × String) → List (String × String)
  | [] => [(key, value)]
  | entry :: rest =>
      if key < entry.1 then (key, value) :: entry :: rest
      else if key = entry.1 then (key, value) :: rest
      else entry :: put key value rest

theorem mem_put {key value : String} {entries : List (String × String)} {entry : String × String}
    (member : entry ∈ put key value entries) : entry = (key, value) ∨ entry ∈ entries := by
  induction entries with
  | nil => simpa [put] using member
  | cons head tail ih =>
      unfold put at member
      split at member
      · simpa using member
      · split at member
        · rcases List.mem_cons.mp member with same | old
          · exact .inl same
          · exact .inr (List.mem_cons_of_mem _ old)
        · rcases List.mem_cons.mp member with same | deeper
          · exact .inr (same ▸ List.mem_cons_self)
          · exact (ih deeper).imp id (List.mem_cons_of_mem _)

theorem ascending_put {key value : String} {entries : List (String × String)}
    (ascending : Ascending entries) : Ascending (put key value entries) := by
  induction entries with
  | nil => simp [put, Ascending]
  | cons head tail ih =>
      have ordered := List.pairwise_cons.mp ascending
      unfold put
      split
      · next less =>
          refine List.pairwise_cons.mpr ⟨?_, ascending⟩
          intro entry member
          rcases List.mem_cons.mp member with same | later
          · exact same ▸ less
          · exact String.lt_trans less (ordered.1 entry later)
      · next notLess =>
          split
          · next same =>
              exact List.pairwise_cons.mpr ⟨fun entry later => same ▸ ordered.1 entry later, ordered.2⟩
          · next different =>
              refine List.pairwise_cons.mpr ⟨?_, ih ordered.2⟩
              intro entry member
              rcases mem_put member with fresh | later
              · subst fresh
                exact Classical.byContradiction fun stuck =>
                  different (String.le_antisymm (String.not_lt.mp stuck) (String.not_lt.mp notLess))
              · exact ordered.1 entry later

theorem find_put_same (key value : String) (entries : List (String × String)) :
    (put key value entries).find? (fun entry => entry.1 == key) = some (key, value) := by
  induction entries with
  | nil => simp [put]
  | cons entry rest ih =>
      unfold put
      split
      · simp
      · split
        · simp
        · next different =>
            have elsewhere : (entry.1 == key) = false := beq_false_of_ne (Ne.symm different)
            rw [List.find?_cons, elsewhere, ih]

theorem find_put_other {key other : String} (apart : other ≠ key) (value : String)
    (entries : List (String × String)) :
    (put key value entries).find? (fun entry => entry.1 == other) =
      entries.find? fun entry => entry.1 == other := by
  have elsewhere : (key == other) = false := beq_false_of_ne (Ne.symm apart)
  induction entries with
  | nil => simp [put, elsewhere]
  | cons entry rest ih =>
      unfold put
      split
      · rw [List.find?_cons, elsewhere]
      · split
        · next same =>
            rw [List.find?_cons, List.find?_cons, elsewhere, ← same, elsewhere]
        · rw [List.find?_cons, List.find?_cons, ih]

end Entries

structure Metadata where
  entries : List (String × String)
  ascending : Entries.Ascending entries
deriving DecidableEq

namespace Metadata

def schemaKey : String := "event_message_schema"

def correlationKey : String := "correlation_id"

def empty : Metadata := ⟨[], List.Pairwise.nil⟩

instance : Inhabited Metadata := ⟨empty⟩

def get? (bag : Metadata) (key : String) : Option String :=
  (bag.entries.find? fun entry => entry.1 == key).map (·.2)

def set (bag : Metadata) (key value : String) : Metadata :=
  ⟨Entries.put key value bag.entries, Entries.ascending_put bag.ascending⟩

def remove (bag : Metadata) (key : String) : Metadata :=
  ⟨bag.entries.filter fun entry => entry.1 != key, bag.ascending.filter _⟩

def contains (bag : Metadata) (key : String) : Bool := (bag.get? key).isSome

def size (bag : Metadata) : Nat := bag.entries.length

def isEmpty (bag : Metadata) : Bool := bag.entries.isEmpty

-- A later pair replaces an earlier one with the same key.
def ofList (pairs : List (String × String)) : Metadata :=
  pairs.foldl (fun bag pair => bag.set pair.1 pair.2) empty

def toList (bag : Metadata) : List (String × String) := bag.entries

def schema? (bag : Metadata) : Option String := bag.get? schemaKey

def correlationId? (bag : Metadata) : Option String := bag.get? correlationKey

@[simp] theorem get_set_same (bag : Metadata) (key value : String) :
    (bag.set key value).get? key = some value := by
  rw [get?, set, Entries.find_put_same, Option.map_some]

theorem get_set_other (bag : Metadata) {key other : String} (apart : other ≠ key) (value : String) :
    (bag.set key value).get? other = bag.get? other := by
  rw [get?, set, Entries.find_put_other apart, get?]

@[simp] theorem schema_set_correlation (bag : Metadata) (id : String) :
    (bag.set correlationKey id).schema? = bag.schema? := bag.get_set_other (by decide) id

end Metadata

end EventPipeline
