import EventPipeline.Metadata
import Mathlib.Data.List.Induction
import Mathlib.Logic.Function.Basic

/-!
Bags under names and what happens to them. A bag holds a key with a value if that is the last that was
written for the key and the key was not removed since; bags that hold the same are equal.
-/

set_option autoImplicit false

namespace EventPipeline

section Contents

variable {entries : List (String × String)} {bag : Metadata} {key value : String}

theorem Entries.find_iff (ascending : Entries.Ascending entries) :
    entries.find? (fun entry => entry.1 == key) = some (key, value) ↔ (key, value) ∈ entries := by
  induction entries with
  | nil => simp
  | cons head tail ih =>
      obtain ⟨above, rest⟩ := List.pairwise_cons.mp ascending
      by_cases same : head.1 = key
      · have apart : (key, value) ∉ tail := fun later =>
          String.lt_irrefl key (same ▸ above (key, value) later)
        simp [same, apart, eq_comm]
      · have different : (key, value) ≠ head := fun equal => same (congrArg Prod.fst equal).symm
        simp [same, different, ih rest]

theorem Metadata.get_iff_mem : bag.get? key = some value ↔ (key, value) ∈ bag.entries := by
  rw [← Entries.find_iff bag.ascending, Metadata.get?]
  constructor
  · intro got
    obtain ⟨⟨name, held⟩, found, rfl⟩ := Option.map_eq_some_iff.mp got
    have same : name = key := by simpa using List.find?_some found
    rw [found, same]
  · intro found
    rw [found, Option.map_some]

theorem Metadata.keys_nodup (bag : Metadata) : (bag.entries.map (·.1)).Nodup := by
  have apart {a b : String} (less : a < b) : a ≠ b := fun same => String.lt_irrefl b (same ▸ less)
  exact List.pairwise_map.mpr (bag.ascending.imp apart)

theorem Metadata.mem_keys_iff : key ∈ bag.entries.map (·.1) ↔ bag.contains key = true := by
  simp [Metadata.contains, Option.isSome_iff_exists, Metadata.get_iff_mem]

theorem Metadata.eq_of_perm {other : Metadata} (same : bag.entries.Perm other.entries) : bag = other := by
  have equal : bag.entries = other.entries := by
    refine same.eq_of_pairwise ?_ bag.ascending other.ascending
    exact fun _ _ _ _ less more => (String.lt_asymm less more).elim
  cases bag
  cases other
  cases equal
  rfl

theorem Metadata.eq_iff_get {other : Metadata} : bag = other ↔ ∀ key, bag.get? key = other.get? key := by
  constructor
  · rintro rfl key
    rfl
  · intro agree
    have nodup (bag : Metadata) : bag.entries.Nodup :=
      List.Pairwise.of_map (·.1) (fun _ _ apart same => apart (congrArg Prod.fst same)) bag.keys_nodup
    refine Metadata.eq_of_perm ((List.perm_ext_iff_of_nodup (nodup bag) (nodup other)).mpr ?_)
    rintro ⟨key, value⟩
    rw [← Metadata.get_iff_mem, ← Metadata.get_iff_mem, agree key]

theorem Metadata.get_remove (bag : Metadata) (removed key : String) :
    (bag.remove removed).get? key = if removed = key then none else bag.get? key := by
  apply Option.ext
  intro value
  by_cases same : removed = key
  · simp [Metadata.get_iff_mem, Metadata.remove, same]
  · simp [Metadata.get_iff_mem, Metadata.remove, same, Ne.symm same]

theorem Metadata.get_set (bag : Metadata) (written value key : String) :
    (bag.set written value).get? key = if written = key then some value else bag.get? key := by
  by_cases same : written = key
  · rw [if_pos same, same, Metadata.get_set_same]
  · rw [if_neg same, bag.get_set_other (Ne.symm same)]

end Contents

namespace Bags

inductive Change where
  | wrote (key value : String)
  | removed (key : String)
deriving DecidableEq

def Change.key : Change → String
  | .wrote key _ | .removed key => key

-- The pairs that a bag is collected from are written one after the other.
def writes (pairs : List (String × String)) : List Change := pairs.map fun pair => .wrote pair.1 pair.2

def LastWritten (changes : List Change) (key value : String) : Prop :=
  ∃ before later, changes = before ++ .wrote key value :: later ∧ ∀ change ∈ later, change.key ≠ key

def Holds (bag : Metadata) (changes : List Change) : Prop :=
  ∀ key value, bag.get? key = some value ↔ LastWritten changes key value

section Changes

variable {bag : Metadata} {changes : List Change} {key value : String}

theorem last_written_append {change : Change} :
    LastWritten (changes ++ [change]) key value ↔
      change = .wrote key value ∨ (change.key ≠ key ∧ LastWritten changes key value) := by
  constructor
  · rintro ⟨before, later, split, untouched⟩
    cases later using List.reverseRecOn with
    | nil => exact .inl (List.singleton_inj.mp (List.append_inj' split rfl).2)
    | append_singleton later last =>
        rw [← List.cons_append, ← List.append_assoc] at split
        obtain ⟨rfl, same⟩ := List.append_inj' split rfl
        cases same
        simp only [List.forall_mem_append, List.forall_mem_singleton] at untouched
        exact .inr ⟨untouched.2, before, later, rfl, untouched.1⟩
  · rintro (rfl | ⟨other, before, later, rfl, untouched⟩)
    · exact ⟨changes, [], rfl, by simp⟩
    · refine ⟨before, later ++ [change], by simp, ?_⟩
      rw [List.forall_mem_append, List.forall_mem_singleton]
      exact ⟨untouched, other⟩

theorem holds_empty : Holds .empty [] := by
  intro key value
  simp [Metadata.get?, Metadata.empty, LastWritten]

theorem Holds.set (holds : Holds bag changes) (key value : String) :
    Holds (bag.set key value) (changes ++ [.wrote key value]) := by
  intro other held
  rw [last_written_append, Metadata.get_set]
  by_cases same : key = other <;> simp [same, Change.key, holds other held]

theorem Holds.remove (holds : Holds bag changes) (key : String) :
    Holds (bag.remove key) (changes ++ [.removed key]) := by
  intro other held
  rw [last_written_append, Metadata.get_remove]
  by_cases same : key = other <;> simp [same, Change.key, holds other held]

theorem holds_collected (pairs : List (String × String)) : Holds (.ofList pairs) (writes pairs) := by
  induction pairs using List.reverseRecOn with
  | nil => exact holds_empty
  | append_singleton pairs pair ih =>
      have written := ih.set pair.1 pair.2
      simpa [Metadata.ofList, writes] using written

theorem Holds.unique {other : Metadata} (holds : Holds bag changes) (alike : Holds other changes) :
    bag = other := by
  rw [Metadata.eq_iff_get]
  intro key
  apply Option.ext
  intro value
  rw [holds key value, alike key value]

theorem last_written_distinct {pairs : List (String × String)} (distinct : (pairs.map (·.1)).Nodup) :
    LastWritten (writes pairs) key value ↔ (key, value) ∈ pairs := by
  induction pairs using List.reverseRecOn with
  | nil => simp [writes, LastWritten]
  | append_singleton pairs pair ih =>
      rw [List.map_append, List.nodup_append] at distinct
      obtain ⟨before, -, apart⟩ := distinct
      have fresh : (key, value) ∈ pairs → pair.1 ≠ key := fun member same =>
        apart key (List.mem_map_of_mem member) pair.1 (by simp) same.symm
      have last : Change.wrote pair.1 pair.2 = .wrote key value ↔ (key, value) = pair := by
        simp [Prod.ext_iff, eq_comm]
      rw [writes, List.map_append, List.map_singleton, last_written_append, ← writes, ih before, last,
        List.mem_append, List.mem_singleton, Change.key, or_comm, and_iff_right_of_imp fresh]

-- The order of the pairs does not matter where every key comes once.
theorem collected_of_perm {pairs : List (String × String)} (order : pairs.Perm bag.entries) :
    Metadata.ofList pairs = bag := by
  have distinct : (pairs.map (·.1)).Nodup := (order.map _).nodup_iff.mpr bag.keys_nodup
  have holds : Holds bag (writes pairs) := by
    intro key value
    rw [Metadata.get_iff_mem, last_written_distinct distinct, order.mem_iff]
  exact (holds_collected pairs).unique holds

end Changes

section Histories

variable {Name : Type}

-- `extend` moves a bag into the result; `collect` starts a bag anew from pairs.
inductive Step (Name : Type) where
  | set (bag : Name) (key value : String)
  | extend (bag result : Name) (key value : String)
  | remove (bag : Name) (key : String)
  | collect (bag : Name) (pairs : List (String × String))
  | clone (bag copy : Name)
deriving DecidableEq

def Step.target : Step Name → Name
  | .set bag _ _ | .extend _ bag _ _ | .remove bag _ | .collect bag _ | .clone _ bag => bag

def Step.result (bags : Name → Metadata) : Step Name → Metadata
  | .set bag key value | .extend bag _ key value => (bags bag).set key value
  | .remove bag key => (bags bag).remove key
  | .collect _ pairs => .ofList pairs
  | .clone bag _ => bags bag

def Step.changes (made : Name → List Change) : Step Name → List Change
  | .set bag key value | .extend bag _ key value => made bag ++ [.wrote key value]
  | .remove bag key => made bag ++ [.removed key]
  | .collect _ pairs => writes pairs
  | .clone bag _ => made bag

theorem Step.holds {bags : Name → Metadata} {made : Name → List Change}
    (holds : ∀ name, Holds (bags name) (made name)) (step : Step Name) :
    Holds (step.result bags) (step.changes made) := by
  cases step with
  | set bag key value => exact (holds bag).set key value
  | extend bag result key value => exact (holds bag).set key value
  | remove bag key => exact (holds bag).remove key
  | collect bag pairs => exact holds_collected pairs
  | clone bag copy => exact holds bag

variable [DecidableEq Name]

-- Every bag is empty at first.
def after (history : List (Step Name)) : Name → Metadata :=
  history.foldl (fun bags step => Function.update bags step.target (step.result bags)) fun _ => .empty

-- What was done to each bag since it was empty or collected. A copy was made by what made its original.
def changes (history : List (Step Name)) : Name → List Change :=
  history.foldl (fun made step => Function.update made step.target (step.changes made)) fun _ => []

theorem after_append (history : List (Step Name)) (step : Step Name) :
    after (history ++ [step]) =
      Function.update (after history) step.target (step.result (after history)) := by
  rw [after, List.foldl_append, List.foldl_cons, List.foldl_nil, after]

theorem changes_append (history : List (Step Name)) (step : Step Name) :
    changes (history ++ [step]) =
      Function.update (changes history) step.target (step.changes (changes history)) := by
  rw [changes, List.foldl_append, List.foldl_cons, List.foldl_nil, changes]

theorem after_holds (history : List (Step Name)) (name : Name) :
    Holds (after history name) (changes history name) := by
  induction history using List.reverseRecOn generalizing name with
  | nil => exact holds_empty
  | append_singleton history step ih =>
      rw [after_append, changes_append]
      by_cases same : name = step.target
      · subst same
        simpa only [Function.update_self] using step.holds ih
      · simpa only [Function.update_of_ne same] using ih name

theorem after_others (history : List (Step Name)) {later : List (Step Name)} {name : Name}
    (others : ∀ step ∈ later, step.target ≠ name) :
    after (history ++ later) name = after history name := by
  induction later using List.reverseRecOn with
  | nil => rw [List.append_nil]
  | append_singleton later step ih =>
      simp only [List.forall_mem_append, List.forall_mem_singleton] at others
      rw [← List.append_assoc, after_append, Function.update_of_ne (Ne.symm others.2), ih others.1]

theorem after_clone (history : List (Step Name)) (original : Name) {copy : Name} {later : List (Step Name)}
    (others : ∀ step ∈ later, step.target ≠ copy) :
    after (history ++ .clone original copy :: later) copy = after history original := by
  rw [List.append_cons, after_others _ others, after_append]
  exact Function.update_self ..

end Histories

end Bags

end EventPipeline
