import EventPipeline.Proofs.JsonValues
import Mathlib.Data.List.TakeWhile

/-!
JSON objects of strings, with white space before any token and every string in any spelling. Reading such
a text gives its members in order, and what can be read is such a text.
-/

set_option autoImplicit false

namespace EventPipeline.Json

def Blank (bytes : Bytes) : Prop := ∀ byte ∈ bytes, byte ∈ [0x20, 0x09, 0x0A, 0x0D]

inductive StringText : String → Bytes → Prop where
  | quoted {text : String} {content : Bytes} (spelled : ContentText text.toList content) :
      StringText text (0x22 :: (content ++ [0x22]))

inductive MemberText (pair : String × String) : Bytes → Prop where
  | named {name before after content : Bytes} (key : StringText pair.1 name) (left : Blank before)
      (right : Blank after) (value : StringText pair.2 content) :
      MemberText pair (name ++ (before ++ 0x3A :: (after ++ content)))

-- What stands behind an opening brace, up to the closing one.
inductive EntriesText : Bool → List (String × String) → Bytes → Prop where
  | closed {isFirst : Bool} {before : Bytes} (blank : Blank before) :
      EntriesText isFirst [] (before ++ [0x7D])
  | first {pair : String × String} {pairs : List (String × String)} {before member others : Bytes}
      (blank : Blank before) (text : MemberText pair member) (rest : EntriesText false pairs others) :
      EntriesText true (pair :: pairs) (before ++ (member ++ others))
  | later {pair : String × String} {pairs : List (String × String)} {before after member others : Bytes}
      (left : Blank before) (right : Blank after) (text : MemberText pair member)
      (rest : EntriesText false pairs others) :
      EntriesText false (pair :: pairs) (before ++ 0x2C :: (after ++ (member ++ others)))

inductive MapText (pairs : List (String × String)) : Bytes → Prop where
  | braced {before inside after : Bytes} (left : Blank before) (entries : EntriesText true pairs inside)
      (right : Blank after) : MapText pairs (before ++ 0x7B :: (inside ++ after))

section Tokens

variable {β : Type} {missing : Error} {next : UInt8 → Bytes → Except Failure β}

theorem blank_iff (byte : UInt8) : byte ∈ [0x20, 0x09, 0x0A, 0x0D] ↔ isBlankByte byte = true := by
  simp [isBlankByte, or_assoc]

theorem skip_blank {blanks : Bytes} (blank : Blank blanks) (bytes : Bytes) :
    skipBlanks (blanks ++ bytes) = skipBlanks bytes :=
  List.dropWhile_append_of_pos fun byte member => (blank_iff byte).mp (blank byte member)

theorem blanks_skipped (bytes : Bytes) : ∃ blanks, Blank blanks ∧ bytes = blanks ++ skipBlanks bytes :=
  ⟨bytes.takeWhile isBlankByte,
    fun byte member => (blank_iff byte).mpr (List.all_eq_true.mp List.all_takeWhile byte member),
    List.takeWhile_append_dropWhile.symm⟩

theorem all_blank_iff {bytes : Bytes} : skipBlanks bytes = [] ↔ Blank bytes := by
  simp only [skipBlanks, List.dropWhile_eq_nil_iff, Blank, blank_iff]

theorem at_token_behind {blanks : Bytes} (blank : Blank blanks) {byte : UInt8}
    (solid : isBlankByte byte = false) (rest : Bytes) :
    atToken missing (blanks ++ byte :: rest) next = next byte rest := by
  rw [atToken, skip_blank blank]
  exact at_token solid rest next

theorem token_found {bytes : Bytes} {result : β} (read : atToken missing bytes next = .ok result) :
    ∃ blanks byte rest, Blank blanks ∧ bytes = blanks ++ byte :: rest ∧ next byte rest = .ok result := by
  obtain ⟨blanks, blank, split⟩ := blanks_skipped bytes
  rw [atToken] at read
  cases left : skipBlanks bytes with
  | nil => simp [left] at read
  | cons byte rest =>
      rw [left] at read
      exact ⟨blanks, byte, rest, blank, left ▸ split, read⟩

end Tokens

section Readers

variable {bytes rest : Bytes}

theorem read_text_iff {text : String} :
    readText bytes = .ok (text, rest) ↔
      ∃ before spelled, Blank before ∧ StringText text spelled ∧ bytes = before ++ (spelled ++ rest) := by
  constructor
  · intro read
    obtain ⟨before, byte, left, blank, rfl, taken⟩ := token_found read
    by_cases quote : byte = 0x22
    · rw [if_pos quote] at taken
      obtain ⟨content, spelled, rfl⟩ := read_body_iff.mp taken
      exact ⟨before, _, blank, .quoted spelled, by simp [quote]⟩
    · simp [quote] at taken
  · rintro ⟨before, _, blank, ⟨spelled⟩, rfl⟩
    rw [List.cons_append, List.append_assoc, readText, readTextAs, at_token_behind blank (by decide),
      if_pos rfl]
    exact read_body_iff.mpr ⟨_, spelled, rfl⟩

theorem read_colon_iff :
    readColon bytes = .ok rest ↔ ∃ before, Blank before ∧ bytes = before ++ 0x3A :: rest := by
  constructor
  · intro read
    obtain ⟨before, byte, left, blank, rfl, taken⟩ := token_found read
    by_cases colon : byte = 0x3A
    · rw [if_pos colon] at taken
      cases taken
      exact ⟨before, blank, by rw [colon]⟩
    · simp [colon] at taken
  · rintro ⟨before, blank, rfl⟩
    rw [readColon, at_token_behind blank (by decide), if_pos rfl]

-- What the reader takes before it reads a member or ends: up to the opening quote or the closing brace.
inductive Approach : Bool → Bool → Bytes → Prop where
  | closing {isFirst : Bool} {before : Bytes} (blank : Blank before) :
      Approach isFirst false (before ++ [0x7D])
  | first {before : Bytes} (blank : Blank before) : Approach true true (before ++ [0x22])
  | later {before after : Bytes} (left : Blank before) (right : Blank after) :
      Approach false true (before ++ 0x2C :: (after ++ [0x22]))

theorem Approach.length_pos {isFirst more : Bool} {lead : Bytes} (approach : Approach isFirst more lead) :
    0 < lead.length := by
  cases approach <;> simp only [List.length_append, List.length_cons] <;> omega

theorem next_member_iff {isFirst more : Bool} :
    nextMember isFirst bytes = .ok (more, rest) ↔
      ∃ text, Approach isFirst more text ∧ bytes = text ++ rest := by
  constructor
  · intro read
    obtain ⟨before, byte, left, blank, rfl, taken⟩ := token_found read
    by_cases brace : byte = 0x7D
    · rw [if_pos brace] at taken
      cases taken
      exact ⟨_, .closing blank, by simp [brace]⟩
    rw [if_neg brace] at taken
    cases isFirst with
    | true =>
        by_cases quote : byte = 0x22
        · simp only [if_pos quote, if_true] at taken
          cases taken
          exact ⟨_, .first blank, by simp [quote]⟩
        · simp [quote] at taken
    | false =>
        by_cases comma : byte = 0x2C
        · simp only [if_pos comma, Bool.false_eq_true, if_false] at taken
          obtain ⟨after, second, others, blank₂, rfl, taken₂⟩ := token_found taken
          by_cases quote : second = 0x22
          · rw [if_pos quote] at taken₂
            cases taken₂
            exact ⟨_, .later blank blank₂, by simp [comma, quote]⟩
          · rw [if_neg quote] at taken₂
            split at taken₂ <;> cases taken₂
        · simp [comma] at taken
  · rintro ⟨_, blank | blank | ⟨left, right⟩, rfl⟩
    · rw [List.append_assoc, nextMember]
      exact at_token_behind blank (by decide) rest
    · rw [List.append_assoc, nextMember]
      exact at_token_behind blank (by decide) rest
    · rw [List.append_assoc, List.cons_append, List.append_assoc, nextMember, at_token_behind left (by decide)]
      exact at_token_behind right (by decide) rest

end Readers

section Entries

variable {pairs : List (String × String)}

theorem member_quoted {pair : String × String} {member : Bytes} (text : MemberText pair member) :
    ∃ body, member = 0x22 :: body := by
  obtain ⟨⟨_⟩, _, _, _⟩ := text
  exact ⟨_, rfl⟩

theorem member_read_iff {name content : String} {bytes rest : Bytes} :
    (∃ left value, readTextBody bytes = .ok (name, left) ∧ readColon left = .ok value ∧
        readText value = .ok (content, rest)) ↔
      ∃ member, MemberText (name, content) (0x22 :: member) ∧ bytes = member ++ rest := by
  constructor
  · rintro ⟨left, value, key, colon, last⟩
    obtain ⟨spelled, text, rfl⟩ := read_body_iff.mp key
    obtain ⟨before, blank, rfl⟩ := read_colon_iff.mp colon
    obtain ⟨after, written, blank₂, text₂, rfl⟩ := read_text_iff.mp last
    exact ⟨_, .named (.quoted text) blank blank₂ text₂, by simp⟩
  · rintro ⟨member, text, rfl⟩
    generalize whole : 0x22 :: member = written at text
    obtain ⟨⟨key⟩, left, right, value⟩ := text
    cases whole
    refine ⟨_, _, read_body_iff.mpr ⟨_, key, ?_⟩, read_colon_iff.mpr ⟨_, left, rfl⟩,
      read_text_iff.mpr ⟨_, _, right, value, rfl⟩⟩
    simp

variable {isFirst : Bool}

theorem entries_nil_iff {inside : Bytes} : EntriesText isFirst [] inside ↔ Approach isFirst false inside := by
  constructor
  · rintro ⟨blank⟩
    exact .closing blank
  · rintro ⟨blank⟩
    exact .closed blank

-- The quote that opens a name belongs to the approach and to the member.
theorem entries_cons_iff {pair : String × String} {inside : Bytes} :
    EntriesText isFirst (pair :: pairs) inside ↔
      ∃ lead member others, Approach isFirst true lead ∧ MemberText pair (0x22 :: member) ∧
        EntriesText false pairs others ∧ inside = lead ++ (member ++ others) := by
  constructor
  · intro entries
    cases entries with
    | first blank text rest =>
        obtain ⟨body, rfl⟩ := member_quoted text
        exact ⟨_, body, _, .first blank, text, rest, by simp⟩
    | later left right text rest =>
        obtain ⟨body, rfl⟩ := member_quoted text
        exact ⟨_, body, _, .later left right, text, rest, by simp⟩
  · rintro ⟨lead, member, others, approach, text, rest, rfl⟩
    cases approach with
    | first blank => simpa using EntriesText.first blank text rest
    | later left right => simpa using EntriesText.later left right text rest

-- Induction on the members: each takes a byte of the fuel at least.
theorem entries_read {inside : Bytes} (entries : EntriesText isFirst pairs inside) (rest : Bytes)
    {fuel : Bytes} (enough : inside.length ≤ fuel.length) :
    readEntries readText fuel isFirst (inside ++ rest) = .ok (pairs, rest) := by
  induction pairs generalizing isFirst inside fuel with
  | nil =>
      have approach := entries_nil_iff.mp entries
      cases fuel with
      | nil => exact absurd approach.length_pos (Nat.not_lt.mpr enough)
      | cons _ fuel =>
          simp only [readEntries, next_member_iff.mpr ⟨inside, approach, rfl⟩, bind, Except.bind,
            Bool.false_eq_true, if_false]
  | cons pair pairs ih =>
      obtain ⟨lead, member, others, approach, text, further, rfl⟩ := entries_cons_iff.mp entries
      have taken := approach.length_pos
      rw [List.length_append, List.length_append] at enough
      cases fuel with
      | nil =>
          rw [List.length_nil] at enough
          omega
      | cons _ fuel =>
          rw [List.length_cons] at enough
          obtain ⟨named, value, key, colon, content⟩ :=
            member_read_iff.mpr ⟨member, text, Eq.refl (member ++ (others ++ rest))⟩
          simp only [List.append_assoc, readEntries, next_member_iff.mpr ⟨lead, approach, rfl⟩, bind,
            Except.bind, if_true, key, colon, content, ih further (show others.length ≤ fuel.length by omega)]

theorem entries_found {fuel bytes rest : Bytes}
    (read : readEntries readText fuel isFirst bytes = .ok (pairs, rest)) :
    ∃ inside, EntriesText isFirst pairs inside ∧ bytes = inside ++ rest := by
  induction fuel generalizing isFirst bytes pairs with
  | nil => cases read
  | cons _ fuel ih =>
      obtain ⟨⟨more, left⟩, begun, read⟩ := bind_ok_iff.mp read
      obtain ⟨lead, approach, rfl⟩ := next_member_iff.mp begun
      cases more with
      | false =>
          cases read
          exact ⟨lead, entries_nil_iff.mpr approach, rfl⟩
      | true =>
          obtain ⟨⟨name, named⟩, key, read⟩ := bind_ok_iff.mp read
          obtain ⟨value, colon, read⟩ := bind_ok_iff.mp read
          obtain ⟨⟨content, left⟩, last, read⟩ := bind_ok_iff.mp read
          obtain ⟨⟨others, left⟩, further, read⟩ := bind_ok_iff.mp read
          cases read
          obtain ⟨member, text, rfl⟩ := member_read_iff.mp ⟨named, value, key, colon, last⟩
          obtain ⟨inside, entries, rfl⟩ := ih further
          exact ⟨_, entries_cons_iff.mpr ⟨lead, member, inside, approach, text, entries, rfl⟩, by simp⟩

end Entries

section Documents

variable {pairs : List (String × String)} {levels : Nat}

theorem read_map_iff (deep : levels ≠ 0) {bytes rest : Bytes} :
    readMap levels readText bytes = .ok (pairs, rest) ↔
      ∃ before inside, Blank before ∧ EntriesText true pairs inside ∧
        bytes = before ++ 0x7B :: (inside ++ rest) := by
  constructor
  · intro read
    obtain ⟨before, byte, left, blank, rfl, taken⟩ := token_found read
    by_cases brace : byte = 0x7B
    · rw [if_pos brace, if_neg deep] at taken
      obtain ⟨inside, entries, rfl⟩ := entries_found taken
      exact ⟨before, inside, blank, entries, by rw [brace]⟩
    · simp [brace] at taken
  · rintro ⟨before, inside, blank, entries, rfl⟩
    rw [readMap, at_token_behind blank (by decide), if_pos rfl, if_neg deep]
    exact entries_read entries rest (by simp)

theorem document_iff {α : Type} {reader : Reader α} {bytes : Bytes} {value : α} :
    readDocument reader bytes = .ok value ↔ ∃ rest, reader bytes = .ok (value, rest) ∧ Blank rest := by
  simp only [← all_blank_iff, readDocument, bind, Except.bind, Except.mapError]
  cases read : reader bytes with
  | error failure => simp
  | ok result =>
      obtain ⟨found, rest⟩ := result
      cases behind : skipBlanks rest with
      | nil => simp [behind, and_assoc]
      | cons byte left => simp [behind]

theorem read_map_document_iff (deep : levels ≠ 0) {text : Bytes} :
    readDocument (readMap levels readText) text = .ok pairs ↔ MapText pairs text := by
  rw [document_iff]
  constructor
  · rintro ⟨after, read, right⟩
    obtain ⟨before, inside, left, entries, rfl⟩ := (read_map_iff deep).mp read
    exact .braced left entries right
  · rintro ⟨left, entries, right⟩
    exact ⟨_, (read_map_iff deep).mpr ⟨_, _, left, entries, rfl⟩, right⟩

end Documents

section Written

theorem blank_nil : Blank [] := fun _ member => (List.not_mem_nil member).elim

theorem text_written (text : String) : StringText text (writeText text) :=
  .quoted (content_written text.toList)

theorem member_written (pair : String × String) : MemberText pair (writeMember pair.1 (writeText pair.2)) :=
  .named (text_written pair.1) blank_nil blank_nil (text_written pair.2)

theorem later_written (pairs : List (String × String)) :
    EntriesText false pairs
      ((pairs.flatMap fun pair => 0x2C :: writeMember pair.1 (writeText pair.2)) ++ [0x7D]) := by
  induction pairs with
  | nil => exact .closed blank_nil
  | cons pair pairs ih => simpa using EntriesText.later blank_nil blank_nil (member_written pair) ih

theorem map_written (pairs : List (String × String)) :
    MapText pairs (writeObject (pairs.map fun pair => writeMember pair.1 (writeText pair.2))) := by
  have entries : EntriesText true pairs
      ([0x2C].intercalate (pairs.map fun pair => writeMember pair.1 (writeText pair.2)) ++ [0x7D]) := by
    cases pairs with
    | nil => exact .closed blank_nil
    | cons pair pairs =>
        have first := EntriesText.first blank_nil (member_written pair) (later_written pairs)
        simpa only [List.map_cons, joined_cons, List.flatMap_map, List.append_assoc, List.nil_append]
          using first
  simpa [writeObject, writeJoined] using MapText.braced blank_nil entries blank_nil

end Written

end EventPipeline.Json
