import EventPipeline.Proofs.JsonValues

/-!
Records read back from their members. A reader that takes every member, each under a name of its own,
ends with everything put into the fresh record; one member it refuses is refused for the record.
-/

set_option autoImplicit false

namespace EventPipeline.Json

-- A member as it is written, and what reading it does to the record.
structure Member (α : Type) where
  name : String
  text : Bytes
  put : α → α

def Member.written {α : Type} (member : Member α) : Bytes := writeMember member.name member.text

section Members

variable {α : Type}

def separator (isFirst : Bool) : Bytes := if isFirst then [] else [0x2C]

def listed : Bool → List (Member α) → Bytes
  | _, [] => []
  | isFirst, member :: members => separator isFirst ++ (member.written ++ listed false members)

theorem joined_members (members : List (Member α)) :
    [0x2C].intercalate (members.map Member.written) = listed true members := by
  cases members with
  | nil => rfl
  | cons member members =>
      have others : ((members.map Member.written).flatMap fun value => 0x2C :: value) =
          listed false members := by
        induction members with
        | nil => rfl
        | cons second members ih => rw [List.map_cons, List.flatMap_cons, ih]; rfl
      rw [List.map_cons, joined_cons, others]
      rfl

theorem listed_append (isFirst : Bool) (a b : List (Member α)) :
    listed isFirst (a ++ b) = listed isFirst a ++ listed (isFirst && a.isEmpty) b := by
  induction a generalizing isFirst with
  | nil => rw [List.nil_append, List.isEmpty_nil, Bool.and_true]; rfl
  | cons member a ih =>
      rw [List.cons_append, listed, listed, ih, List.isEmpty_cons, Bool.and_false, Bool.false_and]
      simp only [List.append_assoc]

theorem listed_long (isFirst : Bool) (members : List (Member α)) :
    members.length ≤ (listed isFirst members).length := by
  induction members generalizing isFirst with
  | nil => exact Nat.zero_le _
  | cons member members ih =>
      have more := ih false
      simp only [listed, List.length_append, Member.written, writeMember, List.length_cons]
      omega

theorem listed_closed {members : List (Member α)} {rest : Bytes} (closed : Closed rest) :
    Closed (listed false members ++ rest) := by
  cases members with
  | nil => exact closed
  | cons member members => exact .inl rfl

theorem next_member (isFirst : Bool) (rest : Bytes) :
    nextMember isFirst (separator isFirst ++ 0x22 :: rest) = .ok (true, rest) := by
  cases isFirst <;> rfl

theorem no_member (isFirst : Bool) (rest : Bytes) :
    nextMember isFirst (0x7D :: rest) = .ok (false, rest) := by
  cases isFirst <;> rfl

theorem read_member {format : RecordFormat α} {field : RecordField α} {member : Member α}
    (found : (format.fields.find? fun field => field.name == member.name) = some field)
    {seen : List String} (unseen : member.name ∉ seen) (isFirst : Bool) (byte : UInt8) (fuel : Bytes)
    (record : α) (rest : Bytes) :
    readMembers format (byte :: fuel) isFirst seen record
        (separator isFirst ++ (member.written ++ rest)) =
      (field.read (member.text ++ rest)).bind fun result =>
        readMembers format fuel false (member.name :: seen) (result.1 record) result.2 := by
  have colon (after : Bytes) : readColon (0x3A :: after) = .ok after := rfl
  have absent : seen.contains member.name = false := by
    simpa only [List.contains_eq_mem, decide_eq_false_iff_not] using unseen
  rw [Member.written, writeMember, List.append_assoc, List.cons_append, write_text_append, readMembers,
    next_member]
  simp only [bind, Except.bind, if_true, read_text_body, found, absent, Bool.false_eq_true, if_false, colon]

def RecordFormat.Takes (format : RecordFormat α) (member : Member α) : Prop :=
  ∃ field, (format.fields.find? fun field => field.name == member.name) = some field ∧
    Reads field.read member.text member.put

def fill (record : α) (members : List (Member α)) : α :=
  members.foldl (fun record member => member.put record) record

def names (members : List (Member α)) : List String := members.map (·.name)

variable {format : RecordFormat α} {members : List (Member α)}

-- Induction on the members. What is seen grows by their names, so the names must be distinct.
theorem read_members (takes : ∀ member ∈ members, format.Takes member) (distinct : (names members).Nodup)
    {seen : List String} (unseen : ∀ member ∈ members, member.name ∉ seen) {fuel : Bytes}
    (enough : members.length ≤ fuel.length) (isFirst : Bool) (record : α) {rest : Bytes}
    (closed : Closed rest) :
    readMembers format fuel isFirst seen record (listed isFirst members ++ rest) =
      readMembers format (fuel.drop members.length) (isFirst && members.isEmpty)
        ((names members).reverse ++ seen) (fill record members) rest := by
  induction members generalizing seen fuel isFirst record with
  | nil =>
      simp only [listed, List.nil_append, List.length_nil, List.drop_zero, List.isEmpty_nil, Bool.and_true,
        names, List.map_nil, List.reverse_nil, fill, List.foldl_nil]
  | cons member members ih =>
      cases fuel with
      | nil => cases enough
      | cons byte fuel =>
          obtain ⟨field, found, reads⟩ := takes member List.mem_cons_self
          obtain ⟨other, distinct⟩ := List.nodup_cons.mp distinct
          have later : ∀ next ∈ members, next.name ∉ member.name :: seen := by
            intro next inside
            rw [List.mem_cons, not_or]
            exact ⟨fun same => other (List.mem_map.mpr ⟨next, inside, same⟩),
              unseen next (List.mem_cons_of_mem _ inside)⟩
          rw [listed, List.append_assoc, List.append_assoc,
            read_member found (unseen member List.mem_cons_self), reads _ (listed_closed closed)]
          simp only [Except.bind]
          rw [ih (fun next inside => takes next (List.mem_cons_of_mem _ inside)) distinct later
            (Nat.le_of_succ_le_succ enough)]
          simp only [names, List.map_cons, List.reverse_cons, List.append_assoc, List.singleton_append,
            List.length_cons, List.drop_succ_cons, List.isEmpty_cons, Bool.and_false, Bool.false_and, fill,
            List.foldl_cons]

theorem object_opened {name : String} (rest : Bytes) :
    readRecord name (some format) (writeObject (members.map Member.written) ++ rest) =
      readMembers format (listed true members ++ 0x7D :: rest) true [] format.fresh
        (listed true members ++ 0x7D :: rest) := by
  rw [writeObject, writeJoined, joined_members, List.cons_append, List.append_assoc, List.singleton_append,
    readRecord, at_token (by decide), if_pos rfl]

theorem reads_record {name : String} (takes : ∀ member ∈ members, format.Takes member)
    (distinct : (names members).Nodup) (complete : missing? format (names members).reverse = none) :
    Reads (readRecord name (some format)) (writeObject (members.map Member.written))
      (fill format.fresh members) := by
  intro rest _
  have long := listed_long true members
  rw [object_opened, read_members takes distinct (fun _ _ => List.not_mem_nil)
    (by rw [List.length_append]; omega) _ _ (show Closed (0x7D :: rest) from .inr (.inr rfl))]
  cases left : (listed true members ++ 0x7D :: rest).drop members.length with
  | nil =>
      have short := congrArg List.length left
      simp only [List.length_drop, List.length_append, List.length_cons, List.length_nil] at short
      omega
  | cons byte fuel =>
      rw [readMembers, no_member]
      simp only [bind, Except.bind, Bool.false_eq_true, if_false, List.append_nil, complete]

def Refuses {β : Type} (read : Reader β) (text : Bytes) (reason : Error) : Prop :=
  ∀ rest, ∃ left, read (text ++ rest) = .error ⟨reason, left⟩

theorem refuses_record {name : String} {refused : Member α} {others : List (Member α)}
    {field : RecordField α} {reason : Error} (later : members ≠ [])
    (takes : ∀ member ∈ members, format.Takes member)
    (distinct : (names (members ++ [refused])).Nodup)
    (found : (format.fields.find? fun field => field.name == refused.name) = some field)
    (refuses : Refuses field.read refused.text reason) :
    Refuses (readRecord name (some format))
      (writeObject ((members ++ refused :: others).map Member.written)) reason := by
  intro rest
  have long := listed_long true members
  have notFirst : (true && members.isEmpty) = false := by
    rw [Bool.true_and, List.isEmpty_eq_false_iff]
    exact later
  rw [names, List.map_append] at distinct
  obtain ⟨before, -, apart⟩ := List.nodup_append.mp distinct
  have unseen : refused.name ∉ (names members).reverse ++ [] := by
    rw [List.append_nil, List.mem_reverse]
    exact fun inside => apart _ inside _ (List.mem_singleton_self _) rfl
  rw [object_opened, listed_append, notFirst, listed, List.append_assoc, List.append_assoc, List.append_assoc,
    read_members takes before (fun _ _ => List.not_mem_nil) (by rw [List.length_append]; omega) _ _
      (show Closed (separator false ++ _) from .inl rfl), notFirst]
  cases left : (listed true members ++ (separator false ++
      (refused.written ++ (listed false others ++ 0x7D :: rest)))).drop members.length with
  | nil =>
      have short := congrArg List.length left
      simp only [List.length_drop, List.length_append, List.length_cons, List.length_nil] at short
      omega
  | cons byte fuel =>
      obtain ⟨stopped, fails⟩ := refuses (listed false others ++ 0x7D :: rest)
      exact ⟨stopped, by rw [read_member found unseen, fails]; rfl⟩

end Members

end EventPipeline.Json
