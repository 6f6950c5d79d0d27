import EventPipeline.Proofs.ProtobufWire

/-!
Messages as their fields make them. A written field takes the reader from one value to the next, and
fields one after another rebuild the message they were written from. Whatever bytes are accepted, a
message grows by no more than the reader has taken.
-/

set_option autoImplicit false

namespace EventPipeline.Protobuf

section Merging

variable {α : Type} {step : α → Input → Except Error (α × Input)}

-- A text that takes the reader from one value to another, piece by piece, whatever stands behind it.
inductive Merges (step : α → Input → Except Error (α × Input)) : α → Bytes → α → Prop where
  | done (value : α) : Merges step value [] value
  | more {value next last : α} {piece text : Bytes} (some : piece ≠ [])
      (reads : ∀ rest, step value (.ofBytes (piece ++ rest)) = .ok (next, .ofBytes rest))
      (later : Merges step next text last) : Merges step value (piece ++ text) last

theorem merges_piece {value next : α} {piece : Bytes} (some : piece ≠ [])
    (reads : ∀ rest, step value (.ofBytes (piece ++ rest)) = .ok (next, .ofBytes rest)) :
    Merges step value piece next := by
  have merges := Merges.more some reads (.done next)
  rwa [List.append_nil] at merges

theorem Merges.append {value middle last : α} {text more : Bytes} (first : Merges step value text middle)
    (second : Merges step middle more last) : Merges step value (text ++ more) last := by
  induction first with
  | done value => exact second
  | more some reads _ ih =>
      rw [List.append_assoc]
      exact .more some reads (ih second)

theorem repeat_until_merges {value last : α} {text : Bytes} (merges : Merges step value text last)
    (rest : Bytes) {fuel : Nat} (enough : text.length ≤ fuel) :
    repeatUntil step rest.length fuel value (.ofBytes (text ++ rest)) = .ok (last, .ofBytes rest) := by
  induction merges generalizing fuel with
  | done value =>
      cases fuel with
      | zero => rfl
      | succ fuel => rw [List.nil_append, repeatUntil, Input.size_of_bytes, if_pos (Nat.le_refl _)]
  | @more value next last piece text some reads _ ih =>
      have long : 0 < piece.length := List.length_pos_iff.mpr some
      rw [List.length_append] at enough
      cases fuel with
      | zero => omega
      | succ fuel =>
          have ahead : ¬ (Input.ofBytes (piece ++ (text ++ rest))).size ≤ rest.length := by
            rw [Input.size_of_bytes, List.length_append, List.length_append]
            omega
          rw [List.append_assoc, repeatUntil, if_neg ahead, reads]
          exact ih (by omega)

theorem merge_delimited_merges {value last : α} {text : Bytes} (merges : Merges step value text last)
    (fits : text.length ≤ largest64) (rest : Bytes) :
    mergeDelimited step value (.ofBytes (writeVarint text.length ++ (text ++ rest))) =
      .ok (last, .ofBytes rest) := by
  have total : (Input.ofBytes (text ++ rest)).size = text.length + rest.length := by
    rw [Input.size_of_bytes, List.length_append]
  have limit : text.length + rest.length - text.length = rest.length := Nat.add_sub_cancel_left _ _
  rw [mergeDelimited, read_varint_written fits]
  simp only [bind, Except.bind, total, if_neg (Nat.not_lt.mpr (Nat.le_add_right _ _)), limit,
    repeat_until_merges merges rest (Nat.le_add_right _ _), Input.size_of_bytes, if_true]

theorem read_delimited_written {content : Bytes} (fits : content.length ≤ largest64) (rest : Bytes) :
    readDelimited .lengthDelimited (.ofBytes (writeVarint content.length ++ (content ++ rest))) =
      .ok (content, .ofBytes rest) := by
  have total : (Input.ofBytes (content ++ rest)).size = content.length + rest.length := by
    rw [Input.size_of_bytes, List.length_append]
  simp only [readDelimited, expectWire, if_true, bind, Except.bind, read_varint_written fits, total,
    if_neg (Nat.not_lt.mpr (Nat.le_add_right content.length rest.length)), Input.take_of_bytes,
    Input.drop_of_bytes]

end Merging

section Fields

variable {α : Type}

-- What a field writes of `value` takes `start` to `next` when it is read.
def MessageField.Copies (field : MessageField α) (depth : Nat) (value start next : α) : Prop :=
  (field.write value = [] ∧ next = start) ∨
    ∃ wire body, field.write value = writeKey field.tag wire ++ body ∧
      ∀ rest, field.merge depth wire start (.ofBytes (body ++ rest)) = .ok (next, .ofBytes rest)

theorem merges_field {format : MessageFormat α} {field : MessageField α} {depth : Nat}
    {value start next : α}
    (found : (format.fields.find? fun other => other.tag == field.tag) = some field)
    (positive : field.tag ≠ 0) (fits : field.tag * 8 + 7 ≤ largest32)
    (copies : field.Copies depth value start next) :
    Merges (format.mergeField depth) start (field.write value) next := by
  obtain ⟨absent, rfl⟩ | ⟨wire, body, written, reads⟩ := copies
  · rw [absent]
    exact .done _
  · have number : wire.number ≤ 5 := by cases wire <;> decide
    rw [written]
    refine merges_piece (fun none => write_varint_nonempty _ (List.append_eq_nil_iff.mp none).1)
      fun rest => ?_
    rw [List.append_assoc, MessageFormat.mergeField, read_key_written positive (by omega)]
    simp only [bind, Except.bind, found, reads]
    rfl

theorem find_own {fields : List (MessageField α)} (distinct : (fields.map (·.tag)).Nodup)
    {field : MessageField α} (member : field ∈ fields) :
    (fields.find? fun other => other.tag == field.tag) = some field := by
  induction fields with
  | nil => exact (List.not_mem_nil member).elim
  | cons first fields ih =>
      obtain ⟨alone, distinct⟩ := List.nodup_cons.mp distinct
      cases List.mem_cons.mp member with
      | inl same =>
          subst same
          exact List.find?_cons_of_pos (beq_self_eq_true field.tag)
      | inr later =>
          have other : (first.tag == field.tag) = false :=
            beq_eq_false_iff_ne.mpr fun same => alone (List.mem_map.mpr ⟨field, later, same.symm⟩)
          rw [List.find?_cons, other]
          exact ih distinct later

structure MessageFormat.Tagged (format : MessageFormat α) : Prop where
  distinct : (format.fields.map (·.tag)).Nodup
  counted : ∀ tag ∈ format.fields.map (·.tag), tag ≠ 0 ∧ tag * 8 + 7 ≤ largest32

-- The fields of a message copied one after another, in the order in which they are written.
inductive Rebuilds (depth : Nat) (value : α) : List (MessageField α) → α → α → Prop where
  | done (last : α) : Rebuilds depth value [] last last
  | field {field : MessageField α} {fields : List (MessageField α)} {start next last : α}
      (copies : field.Copies depth value start next) (later : Rebuilds depth value fields next last) :
      Rebuilds depth value (field :: fields) start last

theorem rebuilds_merges {format : MessageFormat α} (tagged : format.Tagged) {depth : Nat}
    {fields : List (MessageField α)} (inside : ∀ field ∈ fields, field ∈ format.fields)
    {value start last : α} (rebuilds : Rebuilds depth value fields start last) :
    Merges (format.mergeField depth) start (fields.flatMap fun field => field.write value) last := by
  induction rebuilds with
  | done last => exact .done last
  | @field field fields start next last copies later ih =>
      have member := inside field List.mem_cons_self
      obtain ⟨positive, fits⟩ := tagged.counted _ (List.mem_map_of_mem member)
      rw [List.flatMap_cons]
      exact (merges_field (find_own tagged.distinct member) positive fits copies).append
        (ih fun other later => inside other (List.mem_cons_of_mem _ later))

theorem encode_merges {format : MessageFormat α} (tagged : format.Tagged) {depth : Nat} {value : α}
    (rebuilds : Rebuilds depth value format.fields format.fresh value) :
    Merges (format.mergeField depth) format.fresh (format.encode value) value :=
  rebuilds_merges tagged (fun _ member => member) rebuilds

theorem decode_merges {format : MessageFormat α} {text : Bytes} {value : α}
    (merges : Merges (format.mergeField maxDepth) format.fresh text value) :
    format.decode text = .ok value := by
  have whole := repeat_until_merges merges [] (Nat.le_refl _)
  rw [List.append_nil, List.length_nil] at whole
  simp only [MessageFormat.decode, Input.size_of_bytes, whole, bind, Except.bind]

variable {tag : Nat} {name : String} {depth : Nat} {value start next : α}

theorem scalar_copies {get : α → Nat} {set : Nat → α → α} (fits : get value ≤ largest64)
    (put : set (get value) start = next) (absent : get value = 0 → next = start) :
    (MessageField.scalar tag name get set).Copies depth value start next := by
  by_cases zero : get value = 0
  · exact .inl ⟨if_pos zero, absent zero⟩
  · refine .inr ⟨.varint, writeVarint (get value), if_neg zero, fun rest => ?_⟩
    simp only [MessageField.scalar, readScalar, expectWire, if_true, bind, Except.bind,
      read_varint_written fits, put]

theorem bytes_copies {get : α → Bytes} {set : Bytes → α → α} (fits : (get value).length ≤ largest64)
    (put : set (get value) start = next) (absent : get value = [] → next = start) :
    (MessageField.bytes tag name get set).Copies depth value start next := by
  by_cases empty : get value = []
  · exact .inl ⟨if_pos empty, absent empty⟩
  · refine .inr ⟨.lengthDelimited, writeVarint (get value).length ++ get value, ?_, fun rest => ?_⟩
    · simp only [MessageField.bytes, if_neg empty, writeDelimited, List.append_assoc]
    · rw [List.append_assoc]
      simp only [MessageField.bytes, read_delimited_written fits, bind, Except.bind, put]

theorem text_copies {get : α → String} {set : String → α → α}
    (fits : (Bytes.ofString (get value)).length ≤ largest64)
    (put : set (get value) start = next) (absent : get value = "" → next = start) :
    (MessageField.text tag name get set).Copies depth value start next := by
  by_cases empty : get value = ""
  · exact .inl ⟨if_pos empty, absent empty⟩
  · refine .inr ⟨.lengthDelimited,
      writeVarint (Bytes.ofString (get value)).length ++ Bytes.ofString (get value), ?_, fun rest => ?_⟩
    · simp only [MessageField.text, if_neg empty, writeDelimited, List.append_assoc]
    · rw [List.append_assoc]
      simp only [MessageField.text, read_delimited_written fits, bind, Except.bind, Bytes.string_of_string,
        put]

theorem merges_run {push : Nat → α → α} {numbers : List Nat} (fits : ∀ n ∈ numbers, n ≤ largest64) :
    Merges (fun value input => do
        let (n, rest) ← readVarint input
        .ok (push n value, rest)) start (numbers.flatMap writeVarint)
      (numbers.foldl (fun value n => push n value) start) := by
  induction numbers generalizing start with
  | nil => exact .done start
  | cons n numbers ih =>
      rw [List.flatMap_cons, List.foldl_cons]
      refine .more (write_varint_nonempty n) (fun rest => ?_)
        (ih fun m member => fits m (List.mem_cons_of_mem _ member))
      simp only [read_varint_written (fits n List.mem_cons_self), bind, Except.bind]

theorem packed_copies {get : α → List Nat} {push : Nat → α → α} (fits : ∀ n ∈ get value, n ≤ largest64)
    (short : ((get value).flatMap writeVarint).length ≤ largest64)
    (put : (get value).foldl (fun value n => push n value) start = next) :
    (MessageField.packed tag name get push).Copies depth value start next := by
  cases numbers : get value with
  | nil =>
      rw [numbers] at put
      exact .inl ⟨by simp only [MessageField.packed, numbers, List.isEmpty_nil, if_true], put.symm⟩
  | cons n later =>
      rw [numbers] at fits short put
      refine .inr ⟨.lengthDelimited, writeVarint ((n :: later).flatMap writeVarint).length ++
        (n :: later).flatMap writeVarint, ?_, fun rest => ?_⟩
      · simp only [MessageField.packed, numbers, List.isEmpty_cons, Bool.false_eq_true, if_false,
          writeDelimited, List.append_assoc]
      · rw [List.append_assoc]
        simp only [MessageField.packed, if_true]
        rw [merge_delimited_merges (merges_run fits) short, put]

theorem message_copies {β : Type} {format : MessageFormat β} {get : α → Option β} {set : β → α → α}
    (merges : ∀ inner, get value = some inner →
      Merges (format.mergeField depth) ((get start).getD format.fresh) (format.encode inner) inner ∧
      (format.encode inner).length ≤ largest64)
    (put : ∀ inner, get value = some inner → set inner start = next)
    (absent : get value = none → next = start) :
    (MessageField.message tag name format get set).Copies (depth + 1) value start next := by
  cases present : get value with
  | none => exact .inl ⟨by simp only [MessageField.message, present], absent present⟩
  | some inner =>
      obtain ⟨rebuilt, short⟩ := merges inner present
      refine .inr ⟨.lengthDelimited, writeVarint (format.encode inner).length ++ format.encode inner, ?_,
        fun rest => ?_⟩
      · simp only [MessageField.message, present, writeDelimited, List.append_assoc]
      · rw [List.append_assoc]
        simp only [MessageField.message, expectWire, if_true, bind, Except.bind,
          if_neg (Nat.succ_ne_zero depth), Nat.add_sub_cancel, merge_delimited_merges rebuilt short,
          put inner present]

theorem field_within {format : MessageFormat α} {field : MessageField α} (member : field ∈ format.fields) :
    (field.write value).length ≤ (format.encode value).length := by
  obtain ⟨before, after, split⟩ := List.append_of_mem member
  rw [MessageFormat.encode, split, List.flatMap_append, List.flatMap_cons, List.length_append,
    List.length_append]
  omega

theorem delimited_within (tag : Nat) (content : Bytes) :
    content.length ≤ (writeDelimited tag content).length := by
  rw [writeDelimited, List.length_append]
  exact Nat.le_add_left _ _

theorem bytes_within {get : α → Bytes} {set : Bytes → α → α} :
    (get value).length ≤ ((MessageField.bytes tag name get set).write value).length := by
  by_cases empty : get value = []
  · rw [empty]
    exact Nat.zero_le _
  · simp only [MessageField.bytes, if_neg empty]
    exact delimited_within tag _

theorem text_within {get : α → String} {set : String → α → α} :
    (Bytes.ofString (get value)).length ≤ ((MessageField.text tag name get set).write value).length := by
  by_cases empty : get value = ""
  · rw [empty]
    exact Nat.zero_le _
  · simp only [MessageField.text, if_neg empty]
    exact delimited_within tag _

theorem packed_within (get : α → List Nat) {push : Nat → α → α} :
    ((get value).flatMap writeVarint).length ≤
      ((MessageField.packed tag name get push).write value).length := by
  cases numbers : get value with
  | nil => exact Nat.zero_le _
  | cons n later =>
      simp only [MessageField.packed, numbers, List.isEmpty_cons, Bool.false_eq_true, if_false]
      exact delimited_within tag _

theorem message_within {β : Type} {format : MessageFormat β} {get : α → Option β} {set : β → α → α}
    {inner : β} (present : get value = some inner) :
    (format.encode inner).length ≤
      ((MessageField.message tag name format get set).write value).length := by
  simp only [MessageField.message, present]
  exact delimited_within tag _

end Fields

section Weights

variable {α : Type} {weight : α → Nat} {step : α → Input → Except Error (α × Input)}

-- A reader that adds no more to the weight of a value than it takes from the input.
def Spares (weight : α → Nat) (step : α → Input → Except Error (α × Input)) : Prop :=
  ∀ value input next rest, step value input = .ok (next, rest) →
    weight next + rest.size ≤ weight value + input.size

theorem spares_repeat (spares : Spares weight step) (limit fuel : Nat) :
    Spares weight (repeatUntil step limit fuel) := by
  induction fuel with
  | zero =>
      intro value input next rest read
      cases read
      exact Nat.le_refl _
  | succ fuel ih =>
      intro value input next rest read
      rw [repeatUntil] at read
      by_cases ended : input.size ≤ limit
      · rw [if_pos ended] at read
        cases read
        exact Nat.le_refl _
      · rw [if_neg ended] at read
        cases once : step value input with
        | error e =>
            rw [once] at read
            cases read
        | ok result =>
            rw [once] at read
            exact Nat.le_trans (ih _ _ _ _ read) (spares _ _ _ _ once)

theorem spares_delimited (spares : Spares weight step) : Spares weight (mergeDelimited step) := by
  intro value input next rest read
  rw [mergeDelimited] at read
  cases number : readVarint input with
  | error e =>
      rw [number] at read
      cases read
  | ok result =>
      obtain ⟨length, left⟩ := result
      have shorter := (read_varint_takes number).1
      rw [number] at read
      simp only [bind, Except.bind] at read
      split at read
      · cases read
      · split at read
        · cases read
        · next result inside =>
            split at read
            · cases read
              have kept := spares_repeat spares _ _ _ _ _ _ inside
              omega
            · cases read

theorem read_delimited_size {wire : WireType} {input rest : Input} {content : Bytes}
    (read : readDelimited wire input = .ok (content, rest)) : content.length + rest.size ≤ input.size := by
  rw [readDelimited] at read
  cases expected : expectWire wire .lengthDelimited with
  | error e =>
      rw [expected] at read
      cases read
  | ok _ =>
      cases number : readVarint input with
      | error e =>
          rw [expected, number] at read
          cases read
      | ok result =>
          obtain ⟨length, left⟩ := result
          have shorter := (read_varint_takes number).1
          rw [expected, number] at read
          simp only [bind, Except.bind] at read
          split at read
          · cases read
          · cases read
            have front := left.take_length length
            have back : (left.drop length).size = left.size - length := rfl
            omega

theorem read_scalar_takes {wire : WireType} {input rest : Input} {n : Nat}
    (read : readScalar wire input = .ok (n, rest)) :
    (writeVarint n).length + rest.size ≤ input.size := by
  rw [readScalar] at read
  cases expected : expectWire wire .varint with
  | error e =>
      rw [expected] at read
      cases read
  | ok _ =>
      rw [expected] at read
      exact (read_varint_takes read).2

def MessageField.Spares (weight : α → Nat) (field : MessageField α) : Prop :=
  ∀ depth wire, Protobuf.Spares weight (field.merge depth wire)

theorem spares_merge_field {format : MessageFormat α}
    (fields : ∀ field ∈ format.fields, field.Spares weight) (depth : Nat) :
    Spares weight (format.mergeField depth) := by
  intro value input next rest read
  rw [MessageFormat.mergeField] at read
  cases key : readKey input with
  | error e =>
      rw [key] at read
      cases read
  | ok result =>
      obtain ⟨⟨tag, wire⟩, left⟩ := result
      have shorter := read_key_takes key
      rw [key] at read
      simp only [bind, Except.bind] at read
      split at read
      · next field found =>
          cases merged : field.merge depth wire value left with
          | error e =>
              rw [merged] at read
              cases read
          | ok result =>
              rw [merged] at read
              cases read
              have kept := fields field (List.mem_of_find?_eq_some found) depth wire _ _ _ _ merged
              omega
      · split at read
        · cases read
        · next passed =>
            cases read
            have kept := skip_field_size passed
            omega

theorem decode_spares {format : MessageFormat α} (fields : ∀ field ∈ format.fields, field.Spares weight)
    {bytes : Bytes} {value : α} (read : format.decode bytes = .ok value) :
    weight value ≤ weight format.fresh + bytes.length := by
  rw [MessageFormat.decode] at read
  simp only [bind, Except.bind] at read
  split at read
  · cases read
  · next result inside =>
      cases read
      have kept := spares_repeat (spares_merge_field fields maxDepth) _ _ _ _ _ _ inside
      rw [Input.size_of_bytes] at kept
      omega

variable {tag : Nat} {name : String}

theorem scalar_spares {get : α → Nat} {set : Nat → α → α}
    (light : ∀ n value, weight (set n value) ≤ weight value) :
    (MessageField.scalar tag name get set).Spares weight := by
  intro depth wire value input next rest read
  simp only [MessageField.scalar, bind, Except.bind] at read
  split at read
  · cases read
  · next result number =>
      cases read
      have taken := read_scalar_takes number
      have kept := light result.1 value
      omega

theorem bytes_spares {get : α → Bytes} {set : Bytes → α → α}
    (light : ∀ content value, weight (set content value) ≤ weight value + content.length) :
    (MessageField.bytes tag name get set).Spares weight := by
  intro depth wire value input next rest read
  simp only [MessageField.bytes, bind, Except.bind] at read
  split at read
  · cases read
  · next result content =>
      cases read
      have taken := read_delimited_size content
      have kept := light result.1 value
      omega

theorem text_spares {get : α → String} {set : String → α → α}
    (light : ∀ text value, weight (set text value) ≤ weight value + (Bytes.ofString text).length) :
    (MessageField.text tag name get set).Spares weight := by
  intro depth wire value input next rest read
  simp only [MessageField.text, bind, Except.bind] at read
  split at read
  · cases read
  · next result content =>
      have taken := read_delimited_size content
      split at read
      · next text decoded =>
          cases read
          have same := congrArg List.length (Bytes.to_string_iff.mp decoded)
          have kept := light text value
          omega
      · cases read

theorem packed_spares {get : α → List Nat} {push : Nat → α → α}
    (light : ∀ n value, weight (push n value) ≤ weight value + (writeVarint n).length) :
    (MessageField.packed tag name get push).Spares weight := by
  intro depth wire value input next rest read
  simp only [MessageField.packed] at read
  split at read
  · refine spares_delimited ?_ _ _ _ _ read
    intro value input next rest read
    simp only [bind, Except.bind] at read
    split at read
    · cases read
    · next result number =>
        cases read
        have taken := (read_varint_takes number).2
        have kept := light result.1 value
        omega
  · simp only [bind, Except.bind] at read
    split at read
    · cases read
    · next result number =>
        cases read
        have taken := read_scalar_takes number
        have kept := light result.1 value
        omega

theorem message_spares {β : Type} {format : MessageFormat β} {get : α → Option β} {set : β → α → α}
    {inside : β → Nat} (fields : ∀ field ∈ format.fields, field.Spares inside)
    (light : ∀ inner value, weight (set inner value) + inside ((get value).getD format.fresh) ≤
      weight value + inside inner) :
    (MessageField.message tag name format get set).Spares weight := by
  intro depth wire value input next rest read
  simp only [MessageField.message, bind, Except.bind] at read
  split at read
  · cases read
  · split at read
    · cases read
    · split at read
      · cases read
      · next result merged =>
          cases read
          have taken := spares_delimited (spares_merge_field fields (depth - 1)) _ _ _ _ merged
          have kept := light result.1 value
          omega

end Weights

end EventPipeline.Protobuf
