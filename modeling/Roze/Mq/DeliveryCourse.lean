import Mathlib
import Roze.Mq.InMemoryBroker

/-!
# The course of a message

What is sent for one publish call forms a course: one delivery after another, each sent when
the call that nacked the one before ends. The first ones are on the topic of the message,
with attempts from 1 up to the limit; then come those of the copies on the dead-letter topic,
in rounds with attempts from 0 up to the limit, and each round begins with one more record.

A course is within its bounds when the message is sent on its own topic at most as often as
the limit says, with attempts counted from 1, and is given up exactly once when all of these
deliveries are nacked. This depends on how often the copies are nacked, since their attempts
are counted from 0 again.
-/

namespace Roze.Mq

open Roze.Library List

variable {Content Numbered : Type}

/-- The call that nacked the delivery is over. -/
def Delivery.finished (delivery : Delivery Content) : Bool := delivery.state = .nacked false

/-- The place of a delivery in a course: its topic and attempt, and the dead-letter topic
that it carries. -/
def Delivery.place (delivery : Delivery Content) : String × Nat × Option String :=
  (delivery.message.topic, delivery.message.attempt.toNat, delivery.message.deadLetterTopic)

/-- No attempt is above the limit: the counter stops there. -/
def BrokerLimits.endless (limits : BrokerLimits) : Prop := limits.maxAttempts.toNat = 2 ^ 32 - 1

instance (limits : BrokerLimits) : Decidable limits.endless := inferInstanceAs (Decidable (_ = _))

/-- The places of a course: first the attempts on the topic, then the rounds on the
dead-letter topic. -/
def placeAt (limits : BrokerLimits) (message : Message Content) (index : Nat) :
    String × Nat × Option String :=
  if limits.endless ∨ index < limits.maxAttempts.toNat then
    (message.topic, min (index + 1) limits.maxAttempts.toNat, message.deadLetterTopic)
  else
    ((limits.deadLetterTopicOf message).getD message.topic,
      (index - limits.maxAttempts.toNat) % (limits.maxAttempts.toNat + 1), message.deadLetterTopic)

/-- The records that the given number of finished nacks leaves. -/
def rounds (limits : BrokerLimits) (finished : Nat) : Nat :=
  if limits.endless ∨ finished < limits.maxAttempts.toNat then 0
  else 1 + (finished - limits.maxAttempts.toNat) / (limits.maxAttempts.toNat + 1)

/-- The course of a message with a number of records: nothing was sent, or all deliveries
but the last are finished, or all are and there is no dead-letter topic. -/
inductive Course (limits : BrokerLimits) (message : Message Content) :
    List (Delivery Numbered) → Nat → Prop
  | unsent : Course limits message [] 0
  | underway {front : List (Delivery Numbered)} {last : Delivery Numbered}
      (done : ∀ delivery ∈ front, delivery.finished = true) (unfinished : last.finished = false)
      (placed : (front ++ [last]).map Delivery.place =
        (List.range (front.length + 1)).map (placeAt limits message))
      (room : limits.deadLetterTopicOf message = none →
        limits.endless ∨ front.length < limits.maxAttempts.toNat) :
      Course limits message (front ++ [last]) (rounds limits front.length)
  | ended {all : List (Delivery Numbered)} (done : ∀ delivery ∈ all, delivery.finished = true)
      (placed : all.map Delivery.place = (List.range all.length).map (placeAt limits message))
      (noTopic : limits.deadLetterTopicOf message = none) (ends : ¬ limits.endless)
      (full : all.length = limits.maxAttempts.toNat) : Course limits message all 1

/-- The attempts of a message are used up. -/
def exhausted (limits : BrokerLimits) (message : Message Numbered) : Bool :=
  limits.maxAttempts < message.attempt

/-- What is sent for a message: the message, or a copy when it is given up. -/
def forwarded (limits : BrokerLimits) (message : Message Numbered) (deadLetterTopic : Option String) :
    Option (Message Numbered) :=
  if exhausted limits message then
    deadLetterTopic.map (InMemoryBroker.deadLetterCopy message)
  else some message

/-- A message that was just sent. -/
def sent (message : Message Numbered) : Delivery Numbered := ⟨message, .pending⟩

section Next

variable {limits : BrokerLimits} {message : Message Content}

/-! ## The next place -/

theorem positive_toNat (limits : BrokerLimits) : 1 ≤ limits.maxAttempts.toNat :=
  UInt32.le_iff_toNat_le.mp limits.positive

/-- No place has an attempt above the limit. -/
theorem placeAt_attempt_le (limits : BrokerLimits) (message : Message Content) (index : Nat) :
    (placeAt limits message index).2.1 ≤ limits.maxAttempts.toNat := by
  rw [placeAt]
  split
  · exact Nat.min_le_right _ _
  · exact Nat.le_of_lt_succ (Nat.mod_lt _ (Nat.succ_pos _))

/-- All places carry the dead-letter topic of the message. -/
theorem placeAt_carried (limits : BrokerLimits) (message : Message Content) (index : Nat) :
    (placeAt limits message index).2.2 = message.deadLetterTopic := by
  rw [placeAt]
  split <;> rfl

/-- After an attempt below the limit comes the next one on the same topic. -/
theorem placeAt_succ (index : Nat)
    (below : (placeAt limits message index).2.1 < limits.maxAttempts.toNat) :
    placeAt limits message (index + 1) =
        ((placeAt limits message index).1, (placeAt limits message index).2.1 + 1,
          message.deadLetterTopic) ∧
      rounds limits (index + 1) = rounds limits index := by
  simp only [placeAt, rounds] at below ⊢
  by_cases early : limits.endless ∨ index < limits.maxAttempts.toNat
  · grind
  · simp only [if_neg early] at below ⊢
    obtain ⟨ends, _⟩ := not_or.mp early
    have later : ¬ (limits.endless ∨ index + 1 < limits.maxAttempts.toNat) := by grind
    have shifted : index + 1 - limits.maxAttempts.toNat = index - limits.maxAttempts.toNat + 1 := by
      omega
    simp only [if_neg later, shifted]
    generalize index - limits.maxAttempts.toNat = count at below ⊢
    generalize limits.maxAttempts.toNat = limit at below ⊢
    have remainder : (count + 1) % (limit + 1) = count % (limit + 1) + 1 := by
      rw [Nat.add_mod, Nat.mod_eq_of_lt (by omega : 1 < limit + 1), Nat.mod_eq_of_lt (by omega)]
    have quotient : (count + 1) / (limit + 1) = count / (limit + 1) := by
      rw [Nat.succ_div, if_neg]
      · rfl
      · intro divides
        omega
    simp_all

/-- After an attempt at the limit comes attempt 0 on the dead-letter topic, and there is one
more record. -/
theorem placeAt_succ_of_limit (ends : ¬ limits.endless) (index : Nat)
    (last : (placeAt limits message index).2.1 = limits.maxAttempts.toNat) :
    placeAt limits message (index + 1) =
        ((limits.deadLetterTopicOf message).getD message.topic, 0, message.deadLetterTopic) ∧
      rounds limits (index + 1) = rounds limits index + 1 := by
  simp only [placeAt, rounds, ends, false_or] at last ⊢
  by_cases early : index < limits.maxAttempts.toNat
  · simp_all
  · simp only [if_neg early] at last ⊢
    have later : ¬ index + 1 < limits.maxAttempts.toNat := by omega
    have shifted : index + 1 - limits.maxAttempts.toNat = index - limits.maxAttempts.toNat + 1 := by
      omega
    simp only [if_neg later, shifted]
    generalize index - limits.maxAttempts.toNat = count at last ⊢
    generalize limits.maxAttempts.toNat = limit at last ⊢
    have divides : limit + 1 ∣ count + 1 := by
      rw [Nat.dvd_iff_mod_eq_zero, Nat.add_mod, last]
      simp
    have quotient : (count + 1) / (limit + 1) = count / (limit + 1) + 1 := by
      rw [Nat.succ_div, if_pos divides]
    rw [Nat.mod_eq_zero_of_dvd divides, quotient]
    exact ⟨rfl, by omega⟩

/-! ## The next delivery -/

section NextDelivery

variable {delivery : Delivery Numbered} {index : Nat}

section

variable (place : delivery.place = placeAt limits message index)
include place

theorem nextAttempt_exhausted_iff :
    exhausted limits delivery.message.nextAttempt = true ↔
      ¬ limits.endless ∧ (placeAt limits message index).2.1 = limits.maxAttempts.toNat := by
  have attempt : delivery.message.attempt.toNat = (placeAt limits message index).2.1 :=
    congrArg (fun place => place.2.1) place
  have bound := placeAt_attempt_le limits message index
  have top : limits.maxAttempts.toNat < 2 ^ 32 := limits.maxAttempts.toNat_lt
  have next : delivery.message.nextAttempt.attempt.toNat =
      min (delivery.message.attempt.toNat + 1) (2 ^ 32 - 1) :=
    saturatingAddU32_toNat delivery.message.attempt 1
  rw [exhausted, decide_eq_true_eq, UInt32.lt_iff_toNat_lt, next, attempt, BrokerLimits.endless]
  omega

/-- A message with attempts left is sent again at the next place. -/
theorem nextAttempt_place (again : exhausted limits delivery.message.nextAttempt = false) :
    (sent delivery.message.nextAttempt).place = placeAt limits message (index + 1) ∧
      rounds limits (index + 1) = rounds limits index := by
  have attempt : delivery.message.attempt.toNat = (placeAt limits message index).2.1 :=
    congrArg (fun place => place.2.1) place
  have next : delivery.message.nextAttempt.attempt.toNat =
      min (delivery.message.attempt.toNat + 1) (2 ^ 32 - 1) :=
    saturatingAddU32_toNat delivery.message.attempt 1
  have stands : (sent delivery.message.nextAttempt).place = ((placeAt limits message index).1,
      delivery.message.nextAttempt.attempt.toNat, message.deadLetterTopic) := by
    rw [← placeAt_carried limits message index, ← place]
    rfl
  rw [stands]
  rcases eq_or_lt_of_le (placeAt_attempt_le limits message index) with limit | below
  · have endless : limits.endless := by
      by_contra ends
      exact Bool.false_ne_true (again.symm.trans ((nextAttempt_exhausted_iff place).mpr ⟨ends, limit⟩))
    have stays : delivery.message.nextAttempt.attempt.toNat = limits.maxAttempts.toNat := by
      rw [next, attempt, limit, endless]
      rfl
    -- where the counter stops at the limit, so do the attempts
    simp only [stays, placeAt, rounds, endless, true_or, if_true] at limit ⊢
    grind
  · have grows : delivery.message.nextAttempt.attempt.toNat = (placeAt limits message index).2.1 + 1 := by
      have top : limits.maxAttempts.toNat < 2 ^ 32 := limits.maxAttempts.toNat_lt
      omega
    obtain ⟨following, same⟩ := placeAt_succ index below
    simp_all

/-- The copy of a given-up message is sent at the next place. -/
theorem deadLetterCopy_place (given : exhausted limits delivery.message.nextAttempt = true)
    {topic : String} (target : limits.deadLetterTopicOf message = some topic) :
    (sent (InMemoryBroker.deadLetterCopy delivery.message.nextAttempt topic)).place =
        placeAt limits message (index + 1) ∧
      rounds limits (index + 1) = rounds limits index + 1 := by
  obtain ⟨ends, limit⟩ := (nextAttempt_exhausted_iff place).mp given
  obtain ⟨following, oneMore⟩ := placeAt_succ_of_limit ends index limit
  refine ⟨?_, oneMore⟩
  rw [following, target, ← placeAt_carried limits message index, ← place]
  rfl

end

end NextDelivery

namespace Course

variable {all front back : List (Delivery Numbered)} {delivery : Delivery Numbered} {records : Nat}

/-- A delivery that is not finished is the last one of its course. -/
theorem unfinished_last (course : Course limits message all records)
    (split : all = front ++ delivery :: back) (unfinished : delivery.finished = false) :
    back = [] ∧ (∀ earlier ∈ front, earlier.finished = true) ∧
      (front ++ [delivery]).map Delivery.place =
        (List.range (front.length + 1)).map (placeAt limits message) ∧
      (limits.deadLetterTopicOf message = none →
        limits.endless ∨ front.length < limits.maxAttempts.toNat) ∧
      records = rounds limits front.length := by
  cases course with
  | unsent => simp at split
  | @underway before last done waits placed room =>
    rcases eq_nil_or_concat back with rfl | ⟨middle, final, rfl⟩
    · simp_all
    · have longer : before ++ [last] = (front ++ delivery :: middle) ++ [final] := by
        rw [split]
        simp
      have earlier := (append_inj' longer rfl).1
      simp_all
  | ended done => simp_all

/-- Settling the last delivery of a course leaves it as it is. -/
theorem settled {settled : Delivery Numbered} (course : Course limits message all records)
    (split : all = front ++ delivery :: back) (unfinished : delivery.finished = false)
    (samePlace : settled.place = delivery.place) (still : settled.finished = false) :
    Course limits message (front ++ settled :: back) records := by
  obtain ⟨rfl, done, placed, room, rfl⟩ := course.unfinished_last split unfinished
  refine .underway done still ?_ room
  simpa [samePlace] using placed

/-- The next delivery extends a course whose deliveries are all finished. -/
theorem extended {next : Delivery Numbered} (done : ∀ delivery ∈ all, delivery.finished = true)
    (placed : all.map Delivery.place = (List.range all.length).map (placeAt limits message))
    (unfinished : next.finished = false) (place : next.place = placeAt limits message all.length)
    (room : limits.deadLetterTopicOf message = none →
      limits.endless ∨ all.length < limits.maxAttempts.toNat) :
    Course limits message (all ++ [next]) (rounds limits all.length) := by
  refine .underway done unfinished ?_ room
  rw [map_append, placed, range_succ, map_append, map_singleton, place,
    map_singleton]

/-- On the topic of the message the attempt at a place tells whether it is the last one. -/
theorem limit_iff_last (message : Message Content) {index : Nat} (early : index < limits.maxAttempts.toNat) :
    (placeAt limits message index).2.1 = limits.maxAttempts.toNat ↔
      index + 1 = limits.maxAttempts.toNat := by
  rw [placeAt, if_pos (.inr early)]
  simp_all

/-- A nack that is over adds the next delivery to the course, and a record when the attempts
are used up. -/
theorem requeued {finished : Delivery Numbered} (course : Course limits message all records)
    (split : all = front ++ delivery :: back) (unfinished : delivery.finished = false)
    (samePlace : finished.place = delivery.place) (isOver : finished.finished = true) :
    Course limits message
      (front ++ finished :: back ++ (forwarded limits delivery.message.nextAttempt
        (limits.deadLetterTopicOf delivery.message.nextAttempt)).toList.map sent)
      (records + (exhausted limits delivery.message.nextAttempt).toNat) := by
  obtain ⟨rfl, done, placed, room, rfl⟩ := course.unfinished_last split unfinished
  have place : delivery.place = placeAt limits message front.length := by
    rw [range_succ, map_append, map_append] at placed
    simp_all
  have target : limits.deadLetterTopicOf delivery.message.nextAttempt =
      limits.deadLetterTopicOf message := by
    have carried : delivery.message.deadLetterTopic = message.deadLetterTopic :=
      (congrArg (fun place => place.2.2) place).trans (placeAt_carried limits message front.length)
    simp only [BrokerLimits.deadLetterTopicOf, Message.nextAttempt, carried]
  have placed' : (front ++ [finished]).map Delivery.place =
      (List.range (front ++ [finished]).length).map (placeAt limits message) := by
    simpa [samePlace] using placed
  have done' : ∀ earlier ∈ front ++ [finished], earlier.finished = true := by grind
  have length : (front ++ [finished]).length = front.length + 1 := by simp
  have used := nextAttempt_exhausted_iff place
  rw [target, forwarded]
  cases given : exhausted limits delivery.message.nextAttempt with
  | true =>
    rw [if_pos rfl, Bool.toNat_true]
    cases noTopic : limits.deadLetterTopicOf message with
    | none =>
      -- Without a dead-letter topic the message is given up after its own attempts.
      obtain ⟨ends, limit⟩ := used.mp given
      have early := (room noTopic).resolve_left ends
      have first : rounds limits front.length = 0 := if_pos (.inr early)
      rw [first]
      simpa using ended done' placed' noTopic ends (length.trans ((limit_iff_last message early).mp limit))
    | some =>
      obtain ⟨copyPlace, oneMore⟩ := deadLetterCopy_place place given noTopic
      rw [← oneMore, ← length]
      exact extended done' placed' rfl (length ▸ copyPlace) (by simp [noTopic])
  | false =>
    obtain ⟨nextPlace, same⟩ := nextAttempt_place place given
    rw [if_neg Bool.false_ne_true, Bool.toNat_false, Nat.add_zero, ← same, ← length]
    refine extended done' placed' rfl (length ▸ nextPlace) ?_
    intro noTopic
    rcases room noTopic with endless | early
    · exact .inl endless
    · by_contra outside
      obtain ⟨ends, _⟩ := not_or.mp outside
      have limit := (limit_iff_last message early).mpr (by omega)
      simp_all

/-- A message that was just sent for the first time begins its course. -/
theorem first {first : Message Numbered} (topic : first.topic = message.topic)
    (attempt : first.attempt.toNat = 1) (carried : first.deadLetterTopic = message.deadLetterTopic) :
    Course limits message [sent first] 0 := by
  have early : limits.endless ∨ 0 < limits.maxAttempts.toNat := .inr (positive_toNat limits)
  have empty : ∀ delivery ∈ ([] : List (Delivery Numbered)), delivery.finished = true := by simp
  have place : (sent first).place = placeAt limits message 0 := by
    rw [placeAt, if_pos early, Nat.zero_add, Nat.min_eq_left (positive_toNat limits), ← topic,
      ← attempt, ← carried]
    rfl
  have none : rounds limits 0 = 0 := if_pos early
  rw [← none]
  exact extended empty rfl rfl place fun _ => early

end Course

end Next

/-! ## The bounds of a course -/

/-- The deliveries on the topic of the message. -/
def onTopic (message : Message Content) (all : List (Delivery Numbered)) : List (Delivery Numbered) :=
  all.filter fun delivery => delivery.message.topic = message.topic

/-- The deliveries on another topic: the copies. -/
def copies (message : Message Content) (all : List (Delivery Numbered)) : List (Delivery Numbered) :=
  all.filter fun delivery => ¬ delivery.message.topic = message.topic

/-- The calls that nacked these deliveries and are over. -/
def nacks (all : List (Delivery Numbered)) : Nat := all.countP Delivery.finished

/-- The message is sent on its topic at most as often as the limit says, with attempts
counted from 1, and it is given up once when all these deliveries are nacked. -/
structure WithinBounds (limits : BrokerLimits) (message : Message Content)
    (all : List (Delivery Numbered)) (records : Nat) : Prop where
  sends : (onTopic message all).length ≤ limits.maxAttempts.toNat
  attempts : (onTopic message all).map (fun delivery => delivery.message.attempt.toNat) =
    (List.range (onTopic message all).length).map (· + 1)
  givenUp : (onTopic message all).length = limits.maxAttempts.toNat →
    (∀ delivery ∈ onTopic message all, delivery.finished = true) → records = 1

/-- After the last attempt the message goes on on its own topic: the counter stops at the
limit, or the topic is its own dead-letter topic. -/
def Returning (limits : BrokerLimits) (message : Message Content) : Prop :=
  limits.endless ∨ limits.deadLetterTopicOf message = some message.topic

instance (limits : BrokerLimits) (message : Message Content) : Decidable (Returning limits message) :=
  inferInstanceAs (Decidable (_ ∨ _))

/-- At most as many of the copies are nacked as the limit says; fewer deliveries of the
message, where it returns to its topic. -/
def Sparing (limits : BrokerLimits) (message : Message Content) (all : List (Delivery Numbered)) :
    Prop :=
  if Returning limits message then nacks all < limits.maxAttempts.toNat
  else nacks (copies message all) ≤ limits.maxAttempts.toNat

namespace Course

variable {limits : BrokerLimits} {message : Message Content} {all : List (Delivery Numbered)}
  {records : Nat}

section

variable (course : Course limits message all records)
include course

theorem placed :
    all.map Delivery.place = (List.range all.length).map (placeAt limits message) := by
  cases course with
  | unsent => rfl
  | underway _ _ placed => simpa using placed
  | ended _ placed => exact placed

theorem place_get {index : Nat} {delivery : Delivery Numbered} (found : all[index]? = some delivery) :
    delivery.place = placeAt limits message index := by
  obtain ⟨inside, rfl⟩ := List.getElem?_eq_some_iff.mp found
  have same := congrArg (·[index]?) course.placed
  simpa [inside] using same

/-- Where the message returns to its topic, nothing is sent on another one. -/
theorem onTopic_of_returning (returning : Returning limits message) : onTopic message all = all := by
  rw [onTopic, filter_eq_self]
  intro delivery member
  obtain ⟨index, found⟩ := mem_iff_getElem?.mp member
  have topic : delivery.message.topic = (placeAt limits message index).1 :=
    congrArg Prod.fst (course.place_get found)
  rw [decide_eq_true_eq, topic, placeAt]
  split
  · rfl
  · rename_i late
    have same := returning.resolve_left (not_or.mp late).1
    rw [same]
    rfl

/-- Otherwise what is sent on the topic are the first deliveries. -/
theorem topic_iff (away : ¬ Returning limits message) {index : Nat} {delivery : Delivery Numbered}
    (found : all[index]? = some delivery) :
    delivery.message.topic = message.topic ↔ index < limits.maxAttempts.toNat := by
  obtain ⟨ends, other⟩ := not_or.mp away
  have topic : delivery.message.topic = (placeAt limits message index).1 :=
    congrArg Prod.fst (course.place_get found)
  have inside := (List.getElem?_eq_some_iff.mp found).1
  rw [topic, placeAt]
  split
  · simp_all
  · rename_i late
    refine iff_of_false ?_ fun early => late (.inr early)
    cases target : limits.deadLetterTopicOf message with
    | some => simp_all
    | none =>
      cases course with
      | unsent => simp at inside
      | underway done unfinished placed room => grind
      | ended => omega

theorem onTopic_eq_take (away : ¬ Returning limits message) :
    onTopic message all = all.take limits.maxAttempts.toNat ∧
      copies message all = all.drop limits.maxAttempts.toNat := by
  have early : ∀ delivery ∈ all.take limits.maxAttempts.toNat,
      delivery.message.topic = message.topic := by
    intro delivery member
    obtain ⟨index, inside, rfl⟩ := mem_take_iff_getElem.mp member
    exact (course.topic_iff away (getElem?_eq_getElem _)).mpr (by omega)
  have late : ∀ delivery ∈ all.drop limits.maxAttempts.toNat,
      ¬ delivery.message.topic = message.topic := by
    intro delivery member
    obtain ⟨_, _, rfl⟩ := mem_drop_iff_getElem.mp member
    exact (course.topic_iff away (getElem?_eq_getElem _)).not.mpr (by omega)
  have halves := take_append_drop limits.maxAttempts.toNat all
  constructor
  · rw [onTopic, ← halves, filter_append, filter_eq_self.mpr (by simpa using early),
      filter_eq_nil_iff.mpr (by simpa using late), append_nil, halves]
  · rw [copies, ← halves, filter_append, filter_eq_nil_iff.mpr (by simpa using early),
      filter_eq_self.mpr (by simpa using late), nil_append, halves]

/-- The first attempts are counted from 1. -/
theorem first_attempts :
    (all.take limits.maxAttempts.toNat).map (fun delivery => delivery.message.attempt.toNat) =
      (List.range (all.take limits.maxAttempts.toNat).length).map (· + 1) := by
  have attempts := congrArg (fun places => (places.take limits.maxAttempts.toNat).map (fun place => place.2.1))
    course.placed
  simp only [← map_take, map_map, take_range] at attempts
  rw [length_take]
  refine attempts.trans (map_congr_left ?_)
  intro index member
  have inside := mem_range.mp member
  rw [Function.comp_apply, placeAt, if_pos (.inr (by omega))]
  simp_all

end

/-- The nacks of a course and of its later part, when its last delivery is not finished. -/
theorem nacks_drop {front : List (Delivery Numbered)} {last : Delivery Numbered}
    (done : ∀ delivery ∈ front, delivery.finished = true) (unfinished : last.finished = false)
    (count : Nat) : nacks ((front ++ [last]).drop count) = front.length - count := by
  have finished : nacks (front.drop count) = (front.drop count).length :=
    countP_eq_length.mpr fun delivery member => done delivery (mem_of_mem_drop member)
  have pending : nacks ([last].drop (count - front.length)) = 0 := by
    refine countP_eq_zero.mpr ?_
    grind
  rw [drop_append, nacks, countP_append]
  rw [nacks] at finished pending
  simp_all

section

variable (course : Course limits message all records)
include course

theorem withinBounds_of_returning (returning : Returning limits message) :
    WithinBounds limits message all records ↔ nacks all < limits.maxAttempts.toNat := by
  have same := course.onTopic_of_returning returning
  have attempts := course.first_attempts
  have positive := positive_toNat limits
  cases course with
  | unsent =>
    refine iff_of_true ⟨?_, rfl, ?_⟩ positive
    · simp [onTopic]
    · grind
  | @underway front last done unfinished placed room =>
    have count : nacks (front ++ [last]) = front.length := nacks_drop done unfinished 0
    have length : (front ++ [last]).length = front.length + 1 := by simp
    rw [count]
    constructor
    · rintro ⟨sends, -, -⟩
      simp_all
    · intro few
      rw [take_of_length_le (length.trans_le few)] at attempts
      refine ⟨?_, ?_, ?_⟩
      · simp_all
      · simp_all
      · simp_all
  | ended done placed noTopic ends =>
    have target := returning.resolve_left ends
    simp_all

theorem withinBounds_of_away (away : ¬ Returning limits message) :
    WithinBounds limits message all records ↔
      nacks (copies message all) ≤ limits.maxAttempts.toNat := by
  obtain ⟨first, later⟩ := course.onTopic_eq_take away
  have attempts := course.first_attempts
  have bounds : WithinBounds limits message all records ↔
      ((all.take limits.maxAttempts.toNat).length = limits.maxAttempts.toNat →
        (∀ delivery ∈ all.take limits.maxAttempts.toNat, delivery.finished = true) →
          records = 1) := by
    constructor
    · rintro ⟨-, -, givenUp⟩
      rwa [first] at givenUp
    · intro givenUp
      refine ⟨?_, ?_, ?_⟩
      · rw [first, length_take]
        exact Nat.min_le_left _ _
      · rw [first]
        exact attempts
      · rwa [first]
  rw [bounds, later]
  cases course with
  | unsent =>
    have positive := positive_toNat limits
    refine iff_of_true ?_ ?_
    · grind
    · simp [nacks]
  | @underway front last done unfinished placed room =>
    rw [nacks_drop done unfinished]
    by_cases early : front.length < limits.maxAttempts.toNat
    · refine iff_of_true ?_ (by omega)
      intro _ finished
      grind
    · have late := not_lt.mp early
      have first : (front ++ [last]).take limits.maxAttempts.toNat =
          front.take limits.maxAttempts.toNat := take_append_of_le_length late
      have given : rounds limits front.length =
          1 + (front.length - limits.maxAttempts.toNat) / (limits.maxAttempts.toNat + 1) :=
        if_neg (not_or.mpr ⟨(not_or.mp away).1, early⟩)
      rw [first, given, length_take, Nat.min_eq_left late, Nat.add_eq_left,
        Nat.div_eq_zero_iff_lt (Nat.succ_pos _), Nat.lt_succ_iff]
      grind
  | ended done placed noTopic ends full =>
    refine iff_of_true (fun _ _ => rfl) ?_
    rw [drop_of_length_le full.le]
    exact Nat.zero_le _

/-- A course is within its bounds exactly when the copies are nacked no more often than the
limit says. -/
theorem withinBounds_iff :
    WithinBounds limits message all records ↔ Sparing limits message all := by
  rw [Sparing]
  split
  · rename_i returning
    exact course.withinBounds_of_returning returning
  · rename_i away
    exact course.withinBounds_of_away away

end

end Course

end Roze.Mq
