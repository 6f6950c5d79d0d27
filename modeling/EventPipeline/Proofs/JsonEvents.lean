import EventPipeline.Events.Ticket
import EventPipeline.Proofs.JsonRecords

/-!
The events that travel as JSON, read back as they were written. A ticket is read back as long as its
ancestors and the tags of the last one stay within the levels the reader has; it is refused otherwise.
-/

set_option autoImplicit false

namespace EventPipeline

namespace Json

theorem reads_field {α β : Type} {name : String} {read : Reader β} {put : β → α → α} {required : Bool}
    {text : Bytes} {value : β} (reads : Reads read text value) :
    Reads (Events.field name read put required).read text (put value) :=
  reads.map rfl

theorem reads_some {α : Type} {read : Reader α} {text : Bytes} {value : α} (reads : Reads read text value)
    {byte : UInt8} {tail : Bytes} (written : text = byte :: tail) (solid : isBlankByte byte = false)
    (present : byte ≠ 0x6E) : Reads (readOption read) text (some value) := by
  intro rest closed
  have inner := reads rest closed
  rw [written, List.cons_append] at inner ⊢
  rw [readOption, at_token solid, if_neg present, inner]
  rfl

theorem refuses_some {α : Type} {read : Reader α} {text : Bytes} {reason : Error}
    (refuses : Refuses read text reason) {byte : UInt8} {tail : Bytes} (written : text = byte :: tail)
    (solid : isBlankByte byte = false) (present : byte ≠ 0x6E) :
    Refuses (readOption read) text reason := by
  intro rest
  obtain ⟨left, inner⟩ := refuses rest
  rw [written, List.cons_append] at inner ⊢
  exact ⟨left, by rw [readOption, at_token solid, if_neg present, inner]; rfl⟩

theorem refuses_field {α β : Type} {name : String} {read : Reader β} {put : β → α → α}
    {required : Bool} {text : Bytes} {reason : Error} (refuses : Refuses read text reason) :
    Refuses (Events.field name read put required).read text reason := by
  intro rest
  obtain ⟨left, inner⟩ := refuses rest
  exact ⟨left, by simp only [Events.field, inner, Except.map]⟩

theorem reads_document {α : Type} {read : Reader α} {text : Bytes} {value : α}
    (reads : Reads read text value) : readDocument read text = .ok value := by
  have whole := reads [] trivial
  rw [List.append_nil] at whole
  rw [readDocument, whole]
  rfl

theorem refused_document {α : Type} {read : Reader α} {text : Bytes} {reason : Error}
    (refuses : Refuses read text reason) :
    ∃ position, readDocument read text = .error ⟨reason, position⟩ := by
  obtain ⟨left, whole⟩ := refuses []
  rw [List.append_nil] at whole
  rw [readDocument, whole]
  exact ⟨_, rfl⟩

end Json

namespace Events

open Json

section Numbers

theorem reads_u32 (n : UInt32) : Reads readU32 (decimal n.toNat) n := by
  have small := n.toNat_lt
  have reads : Reads (readInteger "u32" 0 4294967295) (decimal n.toNat) n.toNat :=
    reads_natural (by omega) (by decide)
  exact reads.map (f := fun n => UInt32.ofNat n.toNat) (by rw [Int.toNat_natCast, UInt32.ofNat_toNat])

theorem reads_u64 (n : UInt64) : Reads readU64 (decimal n.toNat) n := by
  have small := n.toNat_lt
  have reads : Reads (readInteger "u64" 0 18446744073709551615) (decimal n.toNat) n.toNat :=
    reads_natural (by omega) (by decide)
  exact reads.map (f := fun n => UInt64.ofNat n.toNat) (by rw [Int.toNat_natCast, UInt64.ofNat_toNat])

theorem reads_i64 (n : Int64) : Reads readI64 (decimalInt n.toInt) n := by
  have reads : Reads (readInteger "i64" (-9223372036854775808) 9223372036854775807)
      (decimalInt n.toInt) n.toInt :=
    reads_integer n.minValue_le_toInt n.toInt_le (by decide) (by decide)
  exact reads.map (Int64.ofInt_toInt n)

end Numbers

section Records

variable {levels : Nat}

def OrderPlaced.members (event : OrderPlaced) : List (Member OrderPlaced) :=
  [⟨"id", decimal event.id.toNat, fun read => { read with id := event.id }⟩,
    ⟨"note", writeText event.note, fun read => { read with note := event.note }⟩]

theorem OrderPlaced.reads (deep : levels ≠ 0) (event : OrderPlaced) :
    Reads (OrderPlaced.read levels) event.write event := by
  have takes : ∀ member ∈ event.members, OrderPlaced.format.Takes member := by
    simp only [members, List.forall_mem_cons, List.not_mem_nil, false_imp_iff, implies_true, and_true]
    exact ⟨⟨_, rfl, reads_field (reads_u32 event.id)⟩, ⟨_, rfl, reads_field (reads_text event.note)⟩⟩
  rw [OrderPlaced.read, if_neg deep]
  exact reads_record takes (show ["id", "note"].Nodup by decide) rfl

def OrderConfirmed.members (event : OrderConfirmed) : List (Member OrderConfirmed) :=
  [⟨"id", decimal event.id.toNat, fun read => { read with id := event.id }⟩,
    ⟨"confirmed", writeBoolean event.confirmed, fun read => { read with confirmed := event.confirmed }⟩]

theorem OrderConfirmed.reads (deep : levels ≠ 0) (event : OrderConfirmed) :
    Reads (OrderConfirmed.read levels) event.write event := by
  have takes : ∀ member ∈ event.members, OrderConfirmed.format.Takes member := by
    simp only [members, List.forall_mem_cons, List.not_mem_nil, false_imp_iff, implies_true, and_true]
    exact ⟨⟨_, rfl, reads_field (reads_u32 event.id)⟩, ⟨_, rfl, reads_field (reads_boolean event.confirmed)⟩⟩
  rw [OrderConfirmed.read, if_neg deep]
  exact reads_record takes (show ["id", "confirmed"].Nodup by decide) rfl

def Signup.members (event : Signup) : List (Member Signup) :=
  [⟨"id", decimal event.id.toNat, fun read => { read with id := event.id }⟩,
    ⟨"email", writeText event.email, fun read => { read with email := event.email }⟩]

theorem Signup.reads (deep : levels ≠ 0) (event : Signup) :
    Reads (Signup.read levels) event.write event := by
  have takes : ∀ member ∈ event.members, Signup.format.Takes member := by
    simp only [members, List.forall_mem_cons, List.not_mem_nil, false_imp_iff, implies_true, and_true]
    exact ⟨⟨_, rfl, reads_field (reads_u64 event.id)⟩, ⟨_, rfl, reads_field (reads_text event.email)⟩⟩
  rw [Signup.read, if_neg deep]
  exact reads_record takes (show ["id", "email"].Nodup by decide) rfl

def Listing.members (event : Listing) : List (Member Listing) :=
  [⟨"id", decimal event.id.toNat, fun read => { read with id := event.id }⟩,
    ⟨"items", writeList (event.items.map writeText), fun read => { read with items := event.items }⟩]

theorem Listing.reads (deep : levels ≠ 0) (deeper : levels - 1 ≠ 0) (event : Listing) :
    Reads (Listing.read levels) event.write event := by
  have takes : ∀ member ∈ event.members, (Listing.format (levels - 1)).Takes member := by
    simp only [members, List.forall_mem_cons, List.not_mem_nil, false_imp_iff, implies_true, and_true]
    exact ⟨⟨_, rfl, reads_field (reads_u64 event.id)⟩, ⟨_, rfl, reads_field (reads_texts deeper event.items)⟩⟩
  rw [Listing.read, if_neg deep]
  exact reads_record takes (show ["id", "items"].Nodup by decide) rfl

def Impostor.members (event : Impostor) : List (Member Impostor) :=
  [⟨"id", decimal event.id.toNat, fun _ => ⟨event.id⟩⟩]

theorem Impostor.reads (deep : levels ≠ 0) (event : Impostor) :
    Reads (Impostor.read levels) event.write event := by
  have takes : ∀ member ∈ event.members, Impostor.format.Takes member := by
    simp only [members, List.forall_mem_singleton]
    exact ⟨_, rfl, reads_field (reads_u64 event.id)⟩
  rw [Impostor.read, if_neg deep]
  exact reads_record takes (show ["id"].Nodup by decide) rfl

theorem Maybe.reads (deep : levels ≠ 0) (event : OrderConfirmed) :
    Reads (Maybe.read levels) (Maybe.write (some event)) (some event) :=
  reads_some (OrderConfirmed.reads deep event) rfl rfl (by decide)

end Records

namespace Ticket

theorem reads_priority (levels : Nat) (priority : Priority) :
    Reads (readPriority levels) (writeText priority.name) priority := by
  have reads : Reads (readChoice levels Priority.names) (writeText priority.name) priority.name := by
    intro rest _
    have known : Priority.names.contains priority.name = true := by cases priority <;> decide
    rw [write_text_append, readChoice, at_token (by decide), if_pos rfl]
    simp only [read_text_body, bind, Except.bind, known, if_true]
  exact reads.map (by cases priority <;> decide)

def labels (entry : TicketEntry) : List (Member Ticket) :=
  [⟨"ticketId", decimalInt entry.id.toInt,
      fun ticket => { ticket with entry := { ticket.entry with id := entry.id } }⟩,
    ⟨"priority", writeText entry.priority.name,
      fun ticket => { ticket with entry := { ticket.entry with priority := entry.priority } }⟩]

def tags (entry : TicketEntry) : Member Ticket :=
  ⟨"tags", writeList (entry.tags.map writeText),
    fun ticket => { ticket with entry := { ticket.entry with tags := entry.tags } }⟩

def parent (entry : TicketEntry) (ancestors : List TicketEntry) : Member Ticket :=
  ⟨"parent", writeChain entry ancestors, fun ticket => ticket.withParent (some ⟨entry, ancestors⟩)⟩

def members (entry : TicketEntry) : List TicketEntry → List (Member Ticket)
  | [] => labels entry ++ [tags entry]
  | above :: ancestors => labels entry ++ [tags entry, parent above ancestors]

theorem write_members (entry : TicketEntry) (ancestors : List TicketEntry) :
    writeChain entry ancestors = writeObject ((members entry ancestors).map Member.written) := by
  cases ancestors <;> rfl

theorem members_split (entry : TicketEntry) (ancestors : List TicketEntry) :
    ∃ others, members entry ancestors = labels entry ++ tags entry :: others := by
  cases ancestors <;> exact ⟨_, rfl⟩

theorem chain_opens (entry : TicketEntry) (ancestors : List TicketEntry) :
    ∃ tail, writeChain entry ancestors = 0x7B :: tail := by
  rw [write_members]
  exact ⟨_, rfl⟩

theorem takes_labels (levels : Nat) (read : Reader Ticket) (entry : TicketEntry) :
    ∀ member ∈ labels entry, (format levels read).Takes member := by
  simp only [labels, List.forall_mem_cons, List.not_mem_nil, false_imp_iff, implies_true, and_true]
  exact ⟨⟨_, rfl, reads_field (reads_i64 entry.id)⟩,
    ⟨_, rfl, reads_field (reads_priority levels entry.priority)⟩⟩

theorem takes_tags {levels : Nat} (deep : levels ≠ 0) (read : Reader Ticket) (entry : TicketEntry) :
    (format levels read).Takes (tags entry) :=
  ⟨_, rfl, reads_field (reads_texts deep entry.tags)⟩

theorem takes_parent {levels : Nat} {read : Reader Ticket} {above : TicketEntry}
    {ancestors : List TicketEntry}
    (reads : Reads read (writeChain above ancestors) ⟨above, ancestors⟩) :
    (format levels read).Takes (parent above ancestors) := by
  obtain ⟨tail, written⟩ := chain_opens above ancestors
  have present := reads_some reads written rfl (by decide)
  have put : Reads (field "parent" (readOption read) (fun parent ticket => ticket.withParent parent)
      false).read (writeChain above ancestors) (parent above ancestors).put := reads_field present
  exact ⟨_, rfl, put⟩

-- Induction on the ancestors, each of which is read one level below the one before it.
theorem reads_chain {levels : Nat} (entry : TicketEntry) (ancestors : List TicketEntry)
    (deep : ancestors.length + 2 ≤ levels) :
    Reads (read levels) (writeChain entry ancestors) ⟨entry, ancestors⟩ := by
  rw [write_members]
  induction ancestors generalizing entry levels with
  | nil =>
      obtain ⟨levels, rfl⟩ : ∃ below, levels = below + 1 := ⟨levels - 1, by omega⟩
      have takes : ∀ member ∈ members entry [], (format levels (read levels)).Takes member := by
        rw [members, List.forall_mem_append, List.forall_mem_singleton]
        exact ⟨takes_labels _ _ entry, takes_tags (by rw [List.length_nil] at deep; omega) _ entry⟩
      exact reads_record takes (show ["ticketId", "priority", "tags"].Nodup by decide) rfl
  | cons above ancestors ih =>
      obtain ⟨levels, rfl⟩ : ∃ below, levels = below + 1 := ⟨levels - 1, by omega⟩
      rw [List.length_cons] at deep
      have inner : Reads (read levels) (writeChain above ancestors) ⟨above, ancestors⟩ := by
        rw [write_members]
        exact ih above (by omega)
      have takes : ∀ member ∈ members entry (above :: ancestors),
          (format levels (read levels)).Takes member := by
        simp only [members, List.forall_mem_append, List.forall_mem_cons, List.not_mem_nil, false_imp_iff,
          implies_true, and_true]
        exact ⟨takes_labels _ _ entry, takes_tags (by omega) _ entry, takes_parent inner⟩
      exact reads_record takes (show ["ticketId", "priority", "tags", "parent"].Nodup by decide) rfl

theorem refuses_tags (entry : TicketEntry) :
    Refuses (readList 0 readText) (tags entry).text .recursionLimit :=
  fun _ => ⟨_, rfl⟩

theorem refuses_last (entry : TicketEntry) (ancestors : List TicketEntry) :
    Refuses (read 1) (writeChain entry ancestors) .recursionLimit := by
  obtain ⟨others, split⟩ := members_split entry ancestors
  rw [write_members, split]
  exact refuses_record (List.cons_ne_nil _ _) (takes_labels _ _ entry)
    (show ["ticketId", "priority", "tags"].Nodup by decide) rfl (refuses_field (refuses_tags entry))

theorem refuses_parent {levels : Nat} {entry above : TicketEntry} {ancestors : List TicketEntry}
    (refuses : Refuses (read (levels + 1)) (writeChain above ancestors) .recursionLimit) :
    Refuses (read (levels + 2)) (writeChain entry (above :: ancestors)) .recursionLimit := by
  obtain ⟨tail, written⟩ := chain_opens above ancestors
  have present := refuses_some refuses written rfl (by decide)
  have stuck : Refuses (field "parent" (readOption (read (levels + 1)))
      (fun parent ticket => Ticket.withParent ticket parent) false).read
      (parent above ancestors).text .recursionLimit := refuses_field present
  have takes : ∀ member ∈ labels entry ++ [tags entry],
      (format (levels + 1) (read (levels + 1))).Takes member := by
    rw [List.forall_mem_append, List.forall_mem_singleton]
    exact ⟨takes_labels _ _ entry, takes_tags (by omega) _ entry⟩
  have distinct : (names (labels entry ++ [tags entry] ++ [parent above ancestors])).Nodup :=
    show ["ticketId", "priority", "tags", "parent"].Nodup by decide
  have split : members entry (above :: ancestors) =
      labels entry ++ [tags entry] ++ parent above ancestors :: [] := rfl
  rw [write_members, split]
  exact refuses_record (List.cons_ne_nil _ _) takes distinct rfl stuck

-- The same induction. What stops the reader is the tags of the entry on the last level it has.
theorem refuses_chain {levels : Nat} (entry : TicketEntry) (ancestors : List TicketEntry)
    (shallow : levels < ancestors.length + 2) :
    Refuses (read levels) (writeChain entry ancestors) .recursionLimit := by
  induction ancestors generalizing entry levels with
  | nil =>
      rw [List.length_nil] at shallow
      obtain rfl | rfl : levels = 0 ∨ levels = 1 := by omega
      · exact fun _ => ⟨_, rfl⟩
      · exact refuses_last entry []
  | cons above ancestors ih =>
      rw [List.length_cons] at shallow
      match levels with
      | 0 =>
          rw [write_members]
          exact fun _ => ⟨_, rfl⟩
      | 1 => exact refuses_last entry (above :: ancestors)
      | levels + 2 => exact refuses_parent (ih above (by omega))

end Ticket

end Events

end EventPipeline
