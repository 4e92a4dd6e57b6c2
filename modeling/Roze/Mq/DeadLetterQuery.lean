import Roze.Mq.InMemoryBroker

/-!
# Queries for dead letters

A query asks for a page of the dead letters that match a topic and a group. The default
implementation takes the page of all dead letters and filters that, so the offset counts, and the
limit is used up by, records that do not match.
-/

namespace Roze.Mq

open Roze.Library List

structure DeadLetterQuery where
  topic : Option String
  group : Option String
  offset : Nat
  limit : Nat

section Query

variable {Content : Type} (groupOf : Content → Option String) (query : DeadLetterQuery)

def DeadLetterQuery.matchesTopic (record : DeadLetterRecord Content) : Bool :=
  query.topic.all (fun topic => record.originalTopic = topic)

def DeadLetterQuery.matchesGroup (record : DeadLetterRecord Content) : Bool :=
  query.group.all (fun group => groupOf record.message.content = some group)

def DeadLetterQuery.matches (record : DeadLetterRecord Content) : Bool :=
  query.matchesTopic record && query.matchesGroup groupOf record

/-- A page holds at least one record and at most 500. -/
def clampLimit (limit : Nat) : Nat := min (max limit 1) 500

namespace InMemoryBroker

variable (broker : InMemoryBroker Content)

def deadLettersPage (offset limit : Nat) : List (DeadLetterRecord Content) :=
  (broker.deadLetters.drop offset).take (clampLimit limit)

/-- The default of `MqAdmin::dead_letters_query`; the group is part of what a message carries along. -/
def deadLettersQuery : List (DeadLetterRecord Content) :=
  ((broker.deadLettersPage query.offset query.limit).filter query.matchesTopic).filter
    (query.matchesGroup groupOf)

/-- What a query asks for: the page of the records that match, in queue order. -/
def matchingPage : List (DeadLetterRecord Content) :=
  ((broker.deadLetters.filter (query.matches groupOf)).drop query.offset).take query.limit

/-- Either all records that the offset passes over match, and the records of the page that match are as
many as are asked for, or fewer with no other behind the page; or none matches in the page, and none is
asked for or the offset passes over all that do. -/
def PageAligned : Prop :=
  let found := (broker.deadLettersPage query.offset query.limit).countP (query.matches groupOf)
  ((∀ record ∈ broker.deadLetters.take query.offset, query.matches groupOf record) ∧
    found ≤ query.limit ∧ (found = query.limit ∨
      ∀ record ∈ broker.deadLetters.drop (query.offset + clampLimit query.limit),
        ¬ query.matches groupOf record)) ∨
  (found = 0 ∧
    (query.limit = 0 ∨ broker.deadLetters.countP (query.matches groupOf) ≤ query.offset))

/-- The answers to a number of queries with consecutive offsets. -/
def pages (count : Nat) : List (DeadLetterRecord Content) :=
  (range count).flatMap (fun page =>
    broker.deadLettersQuery groupOf { query with offset := page * query.limit })

/-- No record matches that the pages leave out between them, or that is behind the last. -/
def PagesCover (count : Nat) : Prop :=
  (∀ page < count, ∀ record ∈ (broker.deadLetters.drop (page * query.limit + clampLimit query.limit)).take
      (query.limit - clampLimit query.limit), ¬ query.matches groupOf record) ∧
    ∀ record ∈ broker.deadLetters.drop (count * query.limit), ¬ query.matches groupOf record

end InMemoryBroker

end Query

section Pages

variable {Record : Type} {keep : Record → Bool} {records : List Record} {offset size limit : Nat}

/-- Behind the first records there are those that are kept of the others, less as many as were not kept
of the first. -/
theorem drop_filter (keep : Record → Bool) (records : List Record) (count : Nat) :
    (records.filter keep).drop count = ((records.drop count).filter keep).drop
      (count - ((records.take count).filter keep).length) := by
  have short : ((records.take count).filter keep).length ≤ count :=
    (length_filter_le _ _).trans (length_take_le _ _)
  conv => lhs; rw [← take_append_drop count records]
  rw [filter_append, drop_append, drop_of_length_le short, nil_append]

theorem take_append_eq_left_iff {first second : List Record} :
    (first ++ second).take limit = first ↔
      first.length ≤ limit ∧ (first.length = limit ∨ second = []) := by
  rw [take_append]
  constructor
  · intro same
    have lengths := congrArg length same
    have long : first.length ≤ limit := by grind
    rw [take_of_length_le long, append_right_eq_self, take_eq_nil_iff] at same
    grind
  · rintro ⟨long, full | rfl⟩
    · simp [full]
    · simp [long]

/-- A page that is filtered is the page of the filtered records, in the cases of `PageAligned`.

Proof: if all records before the page are kept, both are about the records from the offset on. Otherwise
the other page begins later among the kept records, and as no record is there twice, it can only be the
same page when both are empty. -/
theorem page_filter_eq_iff (distinct : records.Nodup) :
    ((records.drop offset).take size).filter keep = ((records.filter keep).drop offset).take limit ↔
      ((∀ record ∈ records.take offset, keep record) ∧
        ((records.drop offset).take size).countP keep ≤ limit ∧
        (((records.drop offset).take size).countP keep = limit ∨
          ∀ record ∈ records.drop (offset + size), ¬ keep record)) ∨
      (((records.drop offset).take size).countP keep = 0 ∧
        (limit = 0 ∨ records.countP keep ≤ offset)) := by
  have parts : (records.drop offset).filter keep =
      ((records.drop offset).take size).filter keep ++ (records.drop (offset + size)).filter keep := by
    rw [← filter_append, ← drop_drop, take_append_drop]
  have passed : ((records.filter keep).drop offset).take limit = [] ↔
      limit = 0 ∨ records.countP keep ≤ offset := by
    rw [take_eq_nil_iff, drop_eq_nil_iff, countP_eq_length_filter]
  rw [← passed, ← filter_eq_nil_iff, countP_eq_length_filter, length_eq_zero_iff]
  generalize ((records.drop offset).take size).filter keep = page at parts
  by_cases all : ∀ record ∈ records.take offset, keep record
  · have behind : (records.filter keep).drop offset = (records.drop offset).filter keep := by
      rw [drop_filter, filter_eq_self.mpr all, length_take]
      rcases Nat.le_total offset records.length with long | few
      · rw [min_eq_left long, Nat.sub_self, drop_zero]
      · simp [drop_of_length_le few]
    rw [behind, parts, eq_comm, take_append_eq_left_iff]
    grind
  · have skipped : 0 < offset - ((records.take offset).filter keep).length := by
      by_contra none
      refine all (filter_eq_self.mp (filter_sublist.eq_of_length_le ?_))
      exact (length_take_le _ _).trans (by omega)
    constructor
    · intro same
      have empty : page = [] := by
        cases page with
        | nil => rfl
        | cons first rest =>
          have later : first ∈ ((records.filter keep).drop offset).take limit := by simp [← same]
          rw [drop_filter, parts, cons_append, ← Nat.succ_pred_eq_of_pos skipped, Nat.succ_eq_add_one,
            drop_succ_cons] at later
          have once : ((records.drop offset).filter keep).Nodup :=
            distinct.sublist (filter_sublist.trans (drop_sublist _ _))
          grind
      exact .inr ⟨empty, same ▸ empty⟩
    · grind

/-- Pages that are filtered, one behind the other, have no record that the filtered records do not have,
and all of them exactly if none is kept that the pages leave out.

Proof: by induction on the pages. -/
theorem pages_filter_eq_iff (fits : size ≤ limit) (count : Nat) (records : List Record) :
    let found := (range count).flatMap (fun page => ((records.drop (page * limit)).take size).filter keep)
    found <+ records.filter keep ∧ (found = records.filter keep ↔
      (∀ page < count, ∀ record ∈ (records.drop (page * limit + size)).take (limit - size), ¬ keep record) ∧
        ∀ record ∈ records.drop (count * limit), ¬ keep record) := by
  induction count generalizing records with
  | zero => simp
  | succ count ih =>
    obtain ⟨sub, same⟩ := ih (records.drop limit)
    have parts : records.filter keep = (records.take size).filter keep ++
        (((records.drop size).take (limit - size)).filter keep ++ (records.drop limit).filter keep) := by
      rw [← filter_append, ← filter_append]
      congr 1
      have rest : records.drop limit = (records.drop size).drop (limit - size) := by
        rw [drop_drop, Nat.add_sub_cancel' fits]
      rw [rest, take_append_drop, take_append_drop]
    have next : ∀ page, records.drop ((page + 1) * limit) =
        (records.drop limit).drop (page * limit) := by
      intro page
      rw [drop_drop, Nat.add_mul, Nat.one_mul, Nat.add_comm]
    have left : ∀ page, records.drop ((page + 1) * limit + size) =
        (records.drop limit).drop (page * limit + size) := by
      intro page
      rw [drop_drop]
      grind
    simp only [range_succ_eq_map, flatMap_cons, flatMap_map, Nat.zero_mul, drop_zero, next,
      Nat.succ_eq_add_one]
    rw [parts]
    refine ⟨(Sublist.refl _).append (sub.trans (sublist_append_right _ _)), ?_⟩
    rw [append_cancel_left_eq, Nat.forall_lt_succ_left, Nat.zero_mul, Nat.zero_add]
    simp only [left]
    rw [and_assoc, ← same, ← filter_eq_nil_iff]
    constructor
    · intro whole
      have lengths := congrArg length whole
      have short := sub.length_le
      rw [length_append] at lengths
      have none : (((records.drop size).take (limit - size)).filter keep) = [] :=
        length_eq_zero_iff.mp (by omega)
      grind
    · grind

end Pages

/-! ## The numbers of dead letters -/

namespace InMemoryBroker

variable {Content : Type} {limits : BrokerLimits} {now : UInt64} {broker next : InMemoryBroker Content}

/-- The dead letters have increasing numbers below the next one. -/
structure Numbered (broker : InMemoryBroker Content) : Prop where
  increasing : (broker.deadLetters.map (fun record => record.id.toNat)).Pairwise (· < ·)
  below : ∀ record ∈ broker.deadLetters, record.id.toNat < broker.nextDeadLetterId.toNat

/-- From one broker to the next, the dead letters and their numbers stay, or one is added. -/
def AddsLetter (broker next : InMemoryBroker Content) : Prop :=
  (next.deadLetters = broker.deadLetters ∧ next.nextDeadLetterId = broker.nextDeadLetterId) ∨
    ∃ record, record.id = broker.nextDeadLetterId ∧
      next.deadLetters = broker.deadLetters ++ [record] ∧
      next.nextDeadLetterId = broker.nextDeadLetterId + 1

theorem AddsLetter.of_same {other : InMemoryBroker Content} (adds : other.AddsLetter next)
    (letters : other.deadLetters = broker.deadLetters)
    (number : other.nextDeadLetterId = broker.nextDeadLetterId) : broker.AddsLetter next := by
  rwa [AddsLetter, ← letters, ← number]

theorem addsLetter_deliver (message : Message Content) (deadLetterTopic : Option String) (reason : String) :
    broker.AddsLetter (broker.deliver limits now message deadLetterTopic reason) := by
  unfold deliver
  split
  · cases deadLetterTopic <;> exact .inr ⟨_, rfl, rfl, rfl⟩
  · exact .inl ⟨rfl, rfl⟩

theorem addsLetter_route (message : Message Content) :
    broker.AddsLetter (broker.routeDeliveryNow limits now message) := by
  have kept : (broker.prepareDeliveryMetadata now message).2.deadLetters = broker.deadLetters ∧
      (broker.prepareDeliveryMetadata now message).2.nextDeadLetterId = broker.nextDeadLetterId := by
    unfold prepareDeliveryMetadata
    grind
  exact (addsLetter_deliver _ _ _).of_same kept.1 kept.2

theorem addsLetter_publish (message : Message Content) :
    broker.AddsLetter (broker.publish limits now message) := by
  have noted : ∀ broker : InMemoryBroker Content,
      (broker.noteIdempotencyKey message).deadLetters = broker.deadLetters ∧
        (broker.noteIdempotencyKey message).nextDeadLetterId = broker.nextDeadLetterId := by
    intro broker
    unfold noteIdempotencyKey
    repeat' split
    all_goals exact ⟨rfl, rfl⟩
  unfold publish routeDelivery
  simp only
  repeat' split
  · exact .inl (noted _)
  · exact .inl (noted _)
  · exact (addsLetter_route _).of_same (noted _).1 (noted _).2

theorem Numbered.step (numbered : broker.Numbered) (room : broker.nextDeadLetterId.toNat + 1 < 2 ^ 64)
    {action : BrokerAction Content} {output : BrokerOutcome}
    (taken : (inMemoryBroker Content limits).step broker action = some (next, output)) :
    next.Numbered ∧ next.nextDeadLetterId.toNat ≤ broker.nextDeadLetterId.toNat + 1 := by
  have adds : broker.AddsLetter next := by
    cases stepped_of_step taken with
    | publish => exact addsLetter_publish _
    | wake => exact (addsLetter_route _).of_same rfl rfl
    | runNack => exact (addsLetter_deliver _ _ _).of_same rfl rfl
    | ack | ackAgain | nack | nackAgain => exact .inl ⟨rfl, rfl⟩
  rcases adds with ⟨letters, number⟩ | ⟨record, numberOf, letters, number⟩
  · rw [number]
    exact ⟨⟨letters ▸ numbered.increasing, letters ▸ number ▸ numbered.below⟩, Nat.le_succ _⟩
  · have successor : next.nextDeadLetterId.toNat = broker.nextDeadLetterId.toNat + 1 := by simp_all
    refine ⟨⟨?_, ?_⟩, successor.le⟩
    · rw [letters, map_append, pairwise_append]
      refine ⟨numbered.increasing, pairwise_singleton _ _, ?_⟩
      simpa [numberOf] using numbered.below
    · rw [letters, successor]
      intro other member
      rcases mem_append.mp member with old | new
      · exact Nat.lt_succ_of_lt (numbered.below other old)
      · simp_all

theorem Numbered.run {events : List (BrokerAction Content × BrokerOutcome)}
    (reached : (inMemoryBroker Content limits).Run broker events next) (numbered : broker.Numbered)
    (room : broker.nextDeadLetterId.toNat + events.length < 2 ^ 64) : next.Numbered := by
  induction reached with
  | done => exact numbered
  | step taken _ ih =>
    rw [length_cons] at room
    obtain ⟨kept, above⟩ := numbered.step (by omega) taken
    exact ih kept (by omega)

/-- In every run of fewer than 2^64 - 1 steps, no two dead letters have one number. -/
theorem deadLetters_distinct {events : List (BrokerAction Content × BrokerOutcome)}
    (reached : (inMemoryBroker Content limits).Run .new events broker)
    (few : events.length < 2 ^ 64 - 1) : broker.deadLetters.Nodup := by
  have numbered : Numbered (new : InMemoryBroker Content) := ⟨.nil, nofun⟩
  have room : (new : InMemoryBroker Content).nextDeadLetterId.toNat + events.length < 2 ^ 64 := by
    change 1 + events.length < 2 ^ 64
    omega
  have increasing := (numbered.run reached room).increasing
  exact Nodup.of_map _ (increasing.imp Nat.ne_of_lt)

end InMemoryBroker

/-- No two dead letters of a broker at work are alike. Then a query returns the page that it asks for
exactly if the page is aligned; and queries with consecutive offsets return every matching record once
exactly if the pages cover them. -/
theorem deadLettersQuery_iff {Content : Type} (groupOf : Content → Option String)
    (query : DeadLetterQuery) :
    (∀ limits events (broker : InMemoryBroker Content),
      (inMemoryBroker Content limits).Run .new events broker → events.length < 2 ^ 64 - 1 →
        broker.deadLetters.Nodup) ∧
    ∀ broker : InMemoryBroker Content,
      (broker.deadLetters.Nodup →
        (broker.deadLettersQuery groupOf query = broker.matchingPage groupOf query ↔
          broker.PageAligned groupOf query)) ∧
      (0 < query.limit → ∀ count,
        (broker.pages groupOf query count = broker.deadLetters.filter (query.matches groupOf) ↔
          broker.PagesCover groupOf query count)) := by
  refine ⟨fun _ _ _ reached few => InMemoryBroker.deadLetters_distinct reached few, fun broker => ?_⟩
  have filtered : ∀ offset, broker.deadLettersQuery groupOf { query with offset := offset } =
      (broker.deadLettersPage offset query.limit).filter (query.matches groupOf) := by
    intro offset
    rw [InMemoryBroker.deadLettersQuery, filter_filter]
    exact filter_congr fun record _ => Bool.and_comm _ _
  refine ⟨?_, ?_⟩
  · intro distinct
    rw [filtered query.offset]
    exact page_filter_eq_iff distinct
  · intro positive count
    have fits : clampLimit query.limit ≤ query.limit := by
      unfold clampLimit
      omega
    simp only [InMemoryBroker.pages, filtered]
    exact (pages_filter_eq_iff fits count broker.deadLetters).2

namespace TwoTopics

/-- A message whose attempts are used up, and whose content is its group. -/
def letter (topic : String) : Message (Option String) :=
  ⟨topic, 1, some 0, some 0, 3, none, none, none, some "billing"⟩

/-- An invoice is given up, and then an order. -/
def actions : List (BrokerAction (Option String)) :=
  [.publish 5 (letter "invoices"), .publish 6 (letter "orders")]

def broker : InMemoryBroker (Option String) :=
  (InMemoryBroker.new.publish .new 5 (letter "invoices")).publish .new 6 (letter "orders")

def query (topic : String) (limit : Nat) : DeadLetterQuery := ⟨some topic, some "billing", 0, limit⟩

def record (id : UInt64) (topic : String) (failedAt : UInt64) : DeadLetterRecord (Option String) :=
  ⟨id, topic, "max_attempts_exceeded", failedAt, 0, (letter topic).nextAttempt⟩

end TwoTopics

open TwoTopics in
/-- The order is not on the first page of one record, as an invoice is before it. A page of no records
has the invoice. -/
theorem order_not_found :
    (broker.deadLettersQuery id (query "orders" 1) = [] ∧
      broker.matchingPage id (query "orders" 1) = [record 2 "orders" 6]) ∧
    broker.deadLettersQuery id (query "invoices" 0) = [record 1 "invoices" 5] ∧
      broker.matchingPage id (query "invoices" 0) = [] := by
  decide +kernel

open TwoTopics in
/-- The invoice is the first page of one record, and two such pages have all orders. -/
theorem deadLettersQuery_iff_invoices :
    broker.deadLettersQuery id (query "invoices" 1) = broker.matchingPage id (query "invoices" 1) ∧
      broker.pages id (query "orders" 1) 2 = [record 2 "orders" 6] := by
  have reached : (inMemoryBroker (Option String) .new).Run .new
      (actions.map (fun action => (action, .routed))) broker := .step rfl (.step rfl (.done _))
  obtain ⟨distinct, aligned⟩ := deadLettersQuery_iff id (query "invoices" 1)
  refine ⟨((aligned broker).1 (distinct _ _ _ reached (by decide))).mpr (.inl ⟨?_, ?_⟩), ?_⟩
  · decide +kernel
  · decide +kernel
  · have orders : broker.deadLetters.filter ((query "orders" 1).matches id) = [record 2 "orders" 6] := by
      decide +kernel
    rw [← orders]
    refine (((deadLettersQuery_iff id (query "orders" 1)).2 broker).2 (by decide) 2).mpr ⟨?_, ?_⟩
    · decide +kernel
    · decide +kernel

end Roze.Mq
