import EventPipeline.Registry

/-!
A schema registry over its whole history. It holds the first entry that was ever inserted under each name.
Later inserts under the name are without effect: they succeed if they bring the same kind and are refused if
they bring another. Which names there are does not depend on the order of the inserts.
-/

set_option autoImplicit false

namespace EventPipeline

variable {F : EventFamily}

namespace SchemaRegistry

-- A refused insert leaves the registry as it was.
def following (registry : SchemaRegistry F) (entry : SchemaEntry F) : SchemaRegistry F :=
  (registry.insert entry).toOption.getD registry

def ofHistory (history : List (SchemaEntry F)) : SchemaRegistry F := history.foldl following .empty

def firstUnder (history : List (SchemaEntry F)) (name : String) : Option (SchemaEntry F) :=
  history.find? fun entry => entry.name == name

def collision (first entry : SchemaEntry F) : EventError :=
  .registration ("schema '" ++ entry.name ++ "' is already registered for " ++ first.typeName ++
    " (attempted " ++ entry.typeName ++ ")")

-- All that an insert can come to.
inductive Inserts (registry : SchemaRegistry F) (entry : SchemaEntry F) :
    Except EventError (SchemaRegistry F) → Prop where
  | new (absent : registry.lookup entry.name = none) :
      Inserts registry entry (.ok ⟨registry.entries ++ [entry]⟩)
  | again {first : SchemaEntry F} (found : registry.lookup entry.name = some first)
      (same : first.kind = entry.kind) : Inserts registry entry (.ok registry)
  | taken {first : SchemaEntry F} (found : registry.lookup entry.name = some first)
      (different : first.kind ≠ entry.kind) : Inserts registry entry (.error (collision first entry))

theorem insert_cases (registry : SchemaRegistry F) (entry : SchemaEntry F) :
    registry.Inserts entry (registry.insert entry) := by
  unfold insert
  cases found : registry.lookup entry.name with
  | none => exact .new found
  | some first =>
      by_cases same : first.kind = entry.kind
      · simp only [if_pos same]
        exact .again found same
      · simp only [if_neg same]
        exact .taken found same

section Insert

variable {registry : SchemaRegistry F} {entry : SchemaEntry F}

theorem insert_new (absent : registry.lookup entry.name = none) :
    registry.insert entry = .ok ⟨registry.entries ++ [entry]⟩ := by
  unfold insert
  rw [absent]

theorem insert_accepted_iff :
    (∃ after, registry.insert entry = .ok after) ↔
      ∀ first, registry.lookup entry.name = some first → first.kind = entry.kind := by
  have inserts := insert_cases registry entry
  generalize registry.insert entry = result at inserts
  cases inserts with
  | new absent => simp [absent]
  | again found same => simp [found, same]
  | taken found different => simp [found, different]

theorem insert_refused {e : EventError} (refused : registry.insert entry = .error e) :
    ∃ first, registry.lookup entry.name = some first ∧ e = collision first entry := by
  have inserts := insert_cases registry entry
  rw [refused] at inserts
  cases inserts with
  | taken found different => exact ⟨_, found, rfl⟩

theorem following_of_accepted {after : SchemaRegistry F} (accepted : registry.insert entry = .ok after) :
    registry.following entry = after := by
  unfold following
  rw [accepted]
  rfl

theorem following_cases (registry : SchemaRegistry F) (entry : SchemaEntry F) :
    (registry.lookup entry.name = none ∧ registry.following entry = ⟨registry.entries ++ [entry]⟩) ∨
      (∃ first, registry.lookup entry.name = some first) ∧ registry.following entry = registry := by
  unfold following
  have inserts := insert_cases registry entry
  generalize registry.insert entry = result at inserts
  cases inserts with
  | new absent => exact .inl ⟨absent, rfl⟩
  | again found same => exact .inr ⟨⟨_, found⟩, rfl⟩
  | taken found different => exact .inr ⟨⟨_, found⟩, rfl⟩

end Insert

section Lookup

variable {registry : SchemaRegistry F} {name : String}

theorem lookup_none_iff : registry.lookup name = none ↔ name ∉ registry.entries.map (·.name) := by
  simp [lookup, List.find?_eq_none]

-- Only an insert under a new name changes anything.
theorem following_same_iff {entry : SchemaEntry F} :
    registry.following entry = registry ↔ ∃ first, registry.lookup entry.name = some first := by
  rcases following_cases registry entry with ⟨absent, same⟩ | ⟨known, same⟩
  · rw [same, absent]
    refine ⟨fun unchanged => ?_, nofun⟩
    have longer := congrArg (·.entries.length) unchanged
    simp at longer
  · exact ⟨fun _ => known, fun _ => same⟩

theorem lookup_following (registry : SchemaRegistry F) (entry : SchemaEntry F) (name : String) :
    (registry.following entry).lookup name = (registry.lookup name).or (firstUnder [entry] name) := by
  rcases following_cases registry entry with ⟨-, same⟩ | ⟨⟨first, found⟩, same⟩
  · rw [same]
    exact List.find?_append
  · rw [same]
    by_cases here : entry.name = name
    · rw [← here, found, Option.some_or]
    · simp [firstUnder, here]

-- Induction on the history: one more insert matters only under a name that is new.
theorem lookup_histories (registry : SchemaRegistry F) (history : List (SchemaEntry F)) (name : String) :
    (history.foldl following registry).lookup name = (registry.lookup name).or (firstUnder history name) := by
  induction history generalizing registry with
  | nil => simp [firstUnder]
  | cons entry rest ih =>
      rw [List.foldl_cons, ih, lookup_following, Option.or_assoc]
      congr 1
      exact (@List.find?_append _ _ [entry] rest).symm

theorem lookup_history (history : List (SchemaEntry F)) (name : String) :
    (ofHistory history).lookup name = firstUnder history name := lookup_histories .empty history name

-- What is decoded has the kind of the first entry and the value that its own decoder reads.
theorem decode_history (history : List (SchemaEntry F)) (name : String) (payload : Bytes) :
    (ofHistory history).decode name payload = (firstUnder history name).map fun entry =>
      (entry.decoder payload).map (DecodedEvent.mk entry.kind) := by
  rw [decode, lookup_history]
  rfl

end Lookup

theorem of_history_append (before after : List (SchemaEntry F)) :
    ofHistory (before ++ after) = after.foldl following (ofHistory before) := List.foldl_append

-- A name is entered once.
theorem following_names_distinct {registry : SchemaRegistry F} (distinct : (registry.entries.map (·.name)).Nodup)
    (entry : SchemaEntry F) : ((registry.following entry).entries.map (·.name)).Nodup := by
  rcases following_cases registry entry with ⟨absent, same⟩ | ⟨-, same⟩
  · rw [same, List.map_append]
    refine List.nodup_append.mpr ⟨distinct, List.pairwise_singleton _ _, ?_⟩
    intro name known other last clash
    rw [clash, List.mem_singleton.mp last] at known
    exact lookup_none_iff.mp absent known
  · rw [same]
    exact distinct

theorem history_names_distinct (history : List (SchemaEntry F)) :
    ((ofHistory history).entries.map (·.name)).Nodup := by
  suffices run : ∀ registry : SchemaRegistry F, (registry.entries.map (·.name)).Nodup →
      ((history.foldl following registry).entries.map (·.name)).Nodup from run .empty List.nodup_nil
  induction history with
  | nil => exact fun registry distinct => distinct
  | cons entry rest ih => exact fun registry distinct => ih _ (following_names_distinct distinct entry)

theorem inserted_iff (history : List (SchemaEntry F)) (name : String) :
    (firstUnder history name).isSome ↔ ∃ entry ∈ history, entry.name = name := by
  simp [firstUnder, List.find?_isSome]

theorem mem_names_iff (history : List (SchemaEntry F)) (name : String) :
    name ∈ (ofHistory history).names ↔ ∃ entry ∈ history, entry.name = name := by
  rw [names, List.mem_mergeSort, ← inserted_iff, ← lookup_history, Option.isSome_iff_ne_none]
  exact Iff.symm (not_congr lookup_none_iff |>.trans Classical.not_not)

theorem names_ordered (registry : SchemaRegistry F) : registry.names.Pairwise (· ≤ ·) := by
  have sorted : registry.names.Pairwise fun a b => decide (a ≤ b) = true := by
    refine List.pairwise_mergeSort (fun a b c first second => ?_) (fun a b => ?_) _
    · rw [decide_eq_true_eq] at first second ⊢
      exact String.le_trans first second
    · rw [Bool.or_eq_true, decide_eq_true_eq, decide_eq_true_eq]
      exact String.le_total a b
  exact sorted.imp fun below => of_decide_eq_true below

theorem names_distinct_of_history (history : List (SchemaEntry F)) : (ofHistory history).names.Nodup :=
  (List.mergeSort_perm _ _).nodup_iff.mpr (history_names_distinct history)

theorem names_ascend (history : List (SchemaEntry F)) : (ofHistory history).names.Pairwise (· < ·) := by
  refine ((names_ordered _).and (names_distinct_of_history history)).imp fun {a b} both => ?_
  obtain ⟨below, different⟩ := both
  exact Classical.byContradiction fun stuck => different (String.le_antisymm below (String.not_lt.mp stuck))

theorem names_reordered {history other : List (SchemaEntry F)} (reordered : other.Perm history) :
    (ofHistory other).names = (ofHistory history).names := by
  refine List.Perm.eq_of_pairwise (fun a b _ _ => String.le_antisymm) (names_ordered _) (names_ordered _) ?_
  refine (List.perm_ext_iff_of_nodup (names_distinct_of_history other) (names_distinct_of_history history)).mpr ?_
  intro name
  rw [mem_names_iff, mem_names_iff]
  simp only [reordered.mem_iff]

-- Where one name stands for one kind, nothing is refused, whatever came before it.
theorem insert_accepted_of_agreeing {history before after : List (SchemaEntry F)} {entry : SchemaEntry F}
    (agreeing : ∀ a ∈ history, ∀ b ∈ history, a.name = b.name → a.kind = b.kind)
    (reordered : (before ++ entry :: after).Perm history) :
    ∃ next, (ofHistory before).insert entry = .ok next := by
  refine insert_accepted_iff.mpr fun first found => ?_
  rw [lookup_history] at found
  have earlier : first ∈ before := List.mem_of_find?_eq_some found
  have named : first.name = entry.name := by simpa using List.find?_some found
  have inserted : ∀ other ∈ before ++ entry :: after, other ∈ history := fun _ => reordered.mem_iff.mp
  exact agreeing first (inserted first (List.mem_append_left _ earlier)) entry
    (inserted entry (List.mem_append_right _ List.mem_cons_self)) named

theorem registry_keeps_first_entries (history : List (SchemaEntry F)) :
    let registry := ofHistory history
    (∀ name, registry.lookup name = firstUnder history name) ∧
    (∀ later name entry, registry.lookup name = some entry →
      (ofHistory (history ++ later)).lookup name = some entry) ∧
    (∀ entry,
      ((∃ after, registry.insert entry = .ok after) ↔
        ∀ first, firstUnder history entry.name = some first → first.kind = entry.kind) ∧
      (∀ e, registry.insert entry = .error e →
        ∃ first, firstUnder history entry.name = some first ∧ e = collision first entry) ∧
      (∀ after, registry.insert entry = .ok after → after = ofHistory (history ++ [entry])) ∧
      (ofHistory (history ++ [entry]) = registry ↔ ∃ earlier ∈ history, earlier.name = entry.name)) ∧
    (∀ name,
      ((registry.lookup name).isSome ↔ ∃ entry ∈ history, entry.name = name) ∧
      (registry.contains name ↔ ∃ entry ∈ history, entry.name = name) ∧
      ∀ payload, ((registry.decode name payload).isSome ↔ ∃ entry ∈ history, entry.name = name) ∧
        registry.decode name payload = (firstUnder history name).map fun entry =>
          (entry.decoder payload).map (DecodedEvent.mk entry.kind)) ∧
    registry.names.Pairwise (· < ·) ∧
    (∀ name, name ∈ registry.names ↔ ∃ entry ∈ history, entry.name = name) ∧
    registry.size = registry.names.length ∧
    ∀ other, other.Perm history →
      (ofHistory other).names = registry.names ∧
      ((∀ a ∈ history, ∀ b ∈ history, a.name = b.name → a.kind = b.kind) →
        ∀ before entry after, other = before ++ entry :: after →
          ∃ next, (ofHistory before).insert entry = .ok next) := by
  intro registry
  have first : ∀ name, registry.lookup name = firstUnder history name := lookup_history history
  have known : ∀ name, (registry.lookup name).isSome ↔ ∃ entry ∈ history, entry.name = name := by
    intro name
    rw [first]
    exact inserted_iff history name
  refine ⟨first, ?_, ?_, fun name => ⟨known name, known name, fun payload => ⟨?_, ?_⟩⟩, names_ascend history,
    mem_names_iff history, ?_, fun other reordered => ⟨names_reordered reordered, ?_⟩⟩
  · intro later name entry found
    rw [of_history_append, lookup_histories]
    exact congrArg (Option.or · _) found
  · intro entry
    have next : ofHistory (history ++ [entry]) = registry.following entry := of_history_append history [entry]
    rw [next, following_same_iff, ← Option.isSome_iff_exists, known, ← first]
    exact ⟨insert_accepted_iff, fun e => insert_refused, fun after accepted => (following_of_accepted accepted).symm,
      Iff.rfl⟩
  · rw [decode, Option.isSome_map]
    exact known name
  · exact decode_history history name payload
  · rw [size, names, List.length_mergeSort, List.length_map]
  · intro agreeing before entry after split
    exact insert_accepted_of_agreeing agreeing (split ▸ reordered)

end SchemaRegistry

end EventPipeline
