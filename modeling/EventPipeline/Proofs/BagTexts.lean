import EventPipeline.Metadata.Document
import EventPipeline.Proofs.Bags
import EventPipeline.Proofs.JsonMaps

/-!
Bags and their JSON texts: a bag comes back from every text of its entries, and what is decoded holds the
last value of each key in the text.
-/

set_option autoImplicit false

namespace EventPipeline

namespace Metadata

open Json

-- The text of a bag whose entries are visited in the order given.
def written (entries : List (String × String)) : Bytes :=
  writeObject (entries.map fun entry => writeMember entry.1 (writeText entry.2))

theorem from_json_iff {text : Bytes} {bag : Metadata} :
    fromJson text = .ok bag ↔ ∃ pairs, MapText pairs text ∧ ofList pairs = bag := by
  have decoded (pairs : List (String × String)) :
      readDocument (readMap maxLevels readText) text = .ok pairs ↔ MapText pairs text :=
    read_map_document_iff (by decide)
  cases read : readDocument (readMap maxLevels readText) text <;> simp [fromJson, ← decoded, read]

theorem from_json_written {bag : Metadata} {entries : List (String × String)}
    (order : entries.Perm bag.toList) : fromJson (written entries) = .ok bag :=
  from_json_iff.mpr ⟨entries, map_written entries, Bags.collected_of_perm order⟩

end Metadata

namespace Bags

open Json

theorem collected_iff {pairs : List (String × String)} {bag : Metadata} :
    Metadata.ofList pairs = bag ↔ Holds bag (writes pairs) := by
  constructor
  · rintro rfl
    exact holds_collected pairs
  · exact (holds_collected pairs).unique

-- In turn: what a bag holds after a history and how many keys; when two bags are equal; what a copy shares
-- with its original; that a bag comes back from its text; what any text is decoded to.
theorem bags_are_faithful_maps {Name : Type} [DecidableEq Name] :
    (∀ (history : List (Step Name)) (name : Name),
      (∀ key value,
        (after history name).get? key = some value ↔ LastWritten (changes history name) key value) ∧
      ∃ keys : List String, keys.Nodup ∧
        (∀ key, key ∈ keys ↔ (after history name).contains key = true) ∧
        (after history name).size = keys.length) ∧
    (∀ bag other : Metadata, (bag == other) = true ↔ ∀ key, bag.get? key = other.get? key) ∧
    (∀ (history later : List (Step Name)) (original copy : Name), copy ≠ original →
      ((∀ step ∈ later, step.target ≠ original) →
        after (history ++ .clone original copy :: later) original = after history original) ∧
      ((∀ step ∈ later, step.target ≠ copy) →
        after (history ++ .clone original copy :: later) copy = after history original)) ∧
    (∀ bag : Metadata, bag.toJson = Metadata.written bag.toList ∧
      ∀ entries, entries.Perm bag.toList → Metadata.fromJson (Metadata.written entries) = .ok bag) ∧
    ∀ (text : Bytes) (bag : Metadata), Metadata.fromJson text = .ok bag ↔
      ∃ pairs, MapText pairs text ∧
        ∀ key value, bag.get? key = some value ↔ LastWritten (writes pairs) key value := by
  refine ⟨fun history name => ⟨after_holds history name, ?_⟩, ?_, ?_, ?_, ?_⟩
  · exact ⟨_, (after history name).keys_nodup, fun key => Metadata.mem_keys_iff, by simp [Metadata.size]⟩
  · intro bag other
    rw [beq_iff_eq, Metadata.eq_iff_get]
  · intro history later original copy apart
    constructor
    · intro others
      exact after_others history (List.forall_mem_cons.mpr ⟨apart, others⟩)
    · exact after_clone history original
  · intro bag
    exact ⟨rfl, fun entries order => Metadata.from_json_written order⟩
  · intro text bag
    rw [Metadata.from_json_iff]
    simp only [collected_iff, Holds]

def kept : List (Step String) := [.set "kept" "k" "1", .extend "kept" "kept" "k" "2", .remove "kept" "x"]

theorem drafts_of_kept :
    (after kept "kept").get? "k" = some "2" ∧
    after (kept ++ .clone "kept" "draft" :: [.set "draft" "k" "3", .remove "draft" "k"]) "kept" =
      after kept "kept" ∧
    after (kept ++ .clone "kept" "draft" :: [.remove "kept" "k"]) "draft" = after kept "kept" ∧
    Metadata.fromJson (Metadata.written [("y", "\\"), ("x", "\"")]) =
      .ok (.ofList [("x", "\""), ("y", "\\")]) := by
  obtain ⟨histories, -, clones, texts, -⟩ := @bags_are_faithful_maps String _
  refine ⟨?_, ?_, ?_, ?_⟩
  · exact ((histories kept "kept").1 "k" "2").mpr ⟨[.wrote "k" "1"], [.removed "x"], rfl, by decide⟩
  · exact (clones _ _ _ _ (by decide)).1 (by decide)
  · exact (clones _ _ _ _ (by decide)).2 (by decide)
  · exact (texts _).2 _ (by decide)

-- Two spellings of one key.
example : Metadata.fromJson (Utf8.encode "\x7b\"a\":\"1\", \"\\u0061\":\"2\"\x7d".toList) =
    .ok (.ofList [("a", "2")]) := by
  decide

end Bags

end EventPipeline
