import Roze.Deadline.Hops
import Roze.Edge.Identity

/-!
# Deadlines of outbound calls

A client request carries what remains of the deadline twice, as the timeout of the request and
as metadata. When the deadline has passed nothing remains, as if there were no deadline: the
request gets the default timeout and no metadata.

The gateway forwards the headers of its client. The timeout header is among them, with the time
that the client had when it sent the request, not with what remains for the gateway.
-/

namespace Roze.Deadline

open Roze.Context Option
open Roze.Edge
open Roze.Http
open Roze.Library

/-! ## Requests of an RPC client -/

structure RpcClientOptions where
  requestTimeout : Duration

/-- The timeouts of a request: the one for the transport and the metadata. -/
structure ClientRequest where
  timeout : Duration
  timeoutMetadata : Option String

def timeoutMetadataMillis (timeout : Duration) : String := toString (max timeout.asMillis 1)

/-- The clock is read for the timeout and again for the metadata. -/
def clientRequest (context : Context) (options : RpcClientOptions) (now later : Instant) :
    ClientRequest where
  timeout := (context.remainingTimeout now).getD options.requestTimeout
  timeoutMetadata := (context.remainingTimeout later).map timeoutMetadataMillis

/-- What a callee may be given: the time until the deadline, and at least a millisecond. -/
def callAllowance (deadline now : Instant) : Nat := max (deadline.nanos - now.nanos) 1000000

/-- Both timeouts of the request are set and within the allowance. -/
structure CallBounded (deadline now : Instant) (request : ClientRequest) : Prop where
  timeout : request.timeout.nanos ≤ callAllowance deadline now
  metadata : ∃ millis : Nat, request.timeoutMetadata = some (toString millis) ∧
    millis * 1000000 ≤ callAllowance deadline now

theorem call_bounded_iff {context : Context} {deadline : Instant}
    (present : context.deadline = some deadline) (options : RpcClientOptions) {now later : Instant}
    (ordered : now ≤ later) :
    CallBounded deadline now (clientRequest context options now later) ↔ later ≤ deadline := by
  have readings : now.nanos ≤ later.nanos := ordered
  constructor
  · intro bounded
    obtain ⟨_, written, -⟩ := bounded.metadata
    obtain ⟨remaining, left, -⟩ := map_eq_some_iff.mp written
    rw [remainingTimeout, present] at left
    have sum : later.nanos + remaining.nanos = deadline.nanos :=
      Instant.checkedDurationSince_eq_some_iff.mp left
    have before : later.nanos ≤ deadline.nanos := by omega
    exact before
  · intro unexpired
    have before : later.nanos ≤ deadline.nanos := unexpired
    have left (reading : Instant) (early : reading.nanos ≤ deadline.nanos) :
        ∃ remaining, context.remainingTimeout reading = some remaining ∧
          reading.nanos + remaining.nanos = deadline.nanos := by
      cases found : context.remainingTimeout reading with
      | none =>
        rw [remainingTimeout, present] at found
        have passed : deadline.nanos < reading.nanos :=
          Instant.checkedDurationSince_eq_none_iff.mp found
        omega
      | some remaining =>
        refine ⟨remaining, rfl, ?_⟩
        rw [remainingTimeout, present] at found
        exact Instant.checkedDurationSince_eq_some_iff.mp found
    obtain ⟨_, firstLeft, _⟩ := left now (readings.trans before)
    obtain ⟨second, secondLeft, _⟩ := left later before
    constructor
    · simp only [clientRequest, firstLeft, getD_some, callAllowance]
      omega
    · refine ⟨max second.asMillis 1, by simp [clientRequest, secondLeft, timeoutMetadataMillis], ?_⟩
      have rounded : second.asMillis * 1000000 ≤ second.nanos := Nat.div_mul_le_self _ _
      simp only [callAllowance]
      grind

/-! ## Requests that the gateway forwards -/

def hopByHopHeaders : List String :=
  ["connection", "keep-alive", "proxy-authenticate", "proxy-authorization", "te", "trailer",
    "transfer-encoding", "upgrade", "host"]

def isHopByHopHeader (name : String) : Bool := hopByHopHeaders.contains (toAsciiLowercase name)

/-- The header lines that go to the upstream. -/
def forwardedLines (headers : RequestHeaders) : List (String × HeaderValue) :=
  headers.lines.filter (fun line => !isHopByHopHeader line.1)

/-- The readings of the clock while the gateway builds the context of a request. -/
structure GatewayReadings where
  arrival : Instant
  read : Instant
  now : Instant
  arrived : arrival ≤ read
  ordered : read ≤ now

/-- The context of a request with the given headers. -/
def requestContext (headers : RequestHeaders) (timeouts : GatewayTimeouts) (generated : TraceId)
    (readings : GatewayReadings) : Option Context :=
  (fromPropagationHeaders (propagation headers) generated readings.arrival).bind fun context =>
    gatewayContext context timeouts.effective readings.read readings.now

/-- The lines that an attempt sends; none when no time remains. -/
def sendUpstream (context : Context) (headers : RequestHeaders) (attempt : Instant) :
    Option (List (String × HeaderValue)) :=
  if (context.remainingTimeout attempt).getD .zero = .zero then none
  else some (forwardedLines headers)

/-- The timeout that a header line asks for. -/
def lineTimeout (line : String × HeaderValue) : Option Duration :=
  if line.1 = timeoutHeader then
    (line.2.toStr.bind (parseUnsigned (2 ^ 64))).map (fun millis => .fromMillis (.ofNat millis))
  else none

/-- No timeout that an attempt forwards is larger than what remains. -/
def ForwardBounded (context : Context) (headers : RequestHeaders) (attempt : Instant) : Prop :=
  ∀ lines, sendUpstream context headers attempt = some lines →
    ∀ line ∈ lines, ∀ timeout, lineTimeout line = some timeout →
      ∃ remaining, context.remainingTimeout attempt = some remaining ∧ timeout ≤ remaining

/-- The timeouts that a client sent. -/
def sentTimeouts (headers : RequestHeaders) : List Duration := headers.lines.filterMap lineTimeout

/-- What the gateway grants a request when it builds the context, in nanoseconds. -/
def granted (headers : RequestHeaders) (timeouts : GatewayTimeouts) (readings : GatewayReadings) : Nat :=
  match timeoutFromHeaders (propagation headers) with
  | none => timeouts.effective.nanos
  | some own =>
      min (readings.arrival.nanos + own.nanos - readings.read.nanos) timeouts.effective.nanos

section Forwarding

variable {headers : RequestHeaders} {timeouts : GatewayTimeouts} {generated : TraceId}
variable {readings : GatewayReadings} {context : Context} {attempt : Instant}

theorem gatewayContext_remaining {inbound : Context} {timeout : Duration}
    (entered : gatewayContext inbound timeout readings.read readings.now = some context)
    (later : readings.now ≤ attempt) :
    ∃ deadline, context.deadline = some deadline ∧
      deadline.nanos - attempt.nanos = readings.now.nanos + (match inbound.deadline with
        | none => timeout.nanos
        | some own => min (own.nanos - readings.read.nanos) timeout.nanos) - attempt.nanos := by
  have ordered : readings.read.nanos ≤ readings.now.nanos := readings.ordered
  have after : readings.now.nanos ≤ attempt.nanos := later
  unfold gatewayContext at entered
  cases present : inbound.deadline with
  | none =>
    simp only [present] at entered
    obtain ⟨deadline, found, sum⟩ := deadline_withTimeout entered
    simp_all
  | some own =>
    cases left : inbound.remainingTimeout readings.read with
    | none =>
      simp only [present, left] at entered
      cases entered
      rw [remainingTimeout, present] at left
      have passed : own.nanos < readings.read.nanos :=
        Instant.checkedDurationSince_eq_none_iff.mp left
      grind
    | some remaining =>
      simp only [present, left] at entered
      rw [remainingTimeout, present] at left
      have sum : readings.read.nanos + remaining.nanos = own.nanos :=
        Instant.checkedDurationSince_eq_some_iff.mp left
      obtain ⟨deadline, found, set⟩ := deadline_withTimeout entered
      rw [Duration.nanos_min] at set
      refine ⟨deadline, found, ?_⟩
      simp only
      omega

/-- What remains at an attempt is what was granted, less the time since. -/
theorem requestContext_remaining
    (built : requestContext headers timeouts generated readings = some context)
    (later : readings.now ≤ attempt) :
    ∃ deadline, context.deadline = some deadline ∧
      deadline.nanos - attempt.nanos =
        readings.now.nanos + granted headers timeouts readings - attempt.nanos := by
  obtain ⟨_, restored, entered⟩ := bind_eq_some_iff.mp built
  obtain ⟨deadline, found, left⟩ := gatewayContext_remaining entered later
  refine ⟨deadline, found, ?_⟩
  rw [left, granted]
  rw [fromPropagationHeaders, fromPropagationHeadersWithAliases_eq] at restored
  obtain ⟨_, shown, rfl⟩ := map_eq_some_iff.mp restored
  unfold deadlineFromHeaders at shown
  cases asked : timeoutFromHeaders (propagation headers) with
  | none =>
    rw [asked] at shown
    cases shown
    rfl
  | some =>
    rw [asked] at shown
    obtain ⟨_, added, rfl⟩ := map_eq_some_iff.mp shown
    simp only [Instant.nanos_checkedAdd added]

theorem remainingTimeout_eq_some_iff {deadline : Instant} {remaining : Duration}
    (present : context.deadline = some deadline) :
    context.remainingTimeout attempt = some remaining ↔
      attempt.nanos + remaining.nanos = deadline.nanos := by
  rw [remainingTimeout, present]
  exact Instant.checkedDurationSince_eq_some_iff

/-- An attempt sends the lines while some of what was granted is left. -/
theorem sendUpstream_eq_some_iff {lines : List (String × HeaderValue)} {deadline : Instant}
    (present : context.deadline = some deadline) :
    sendUpstream context headers attempt = some lines ↔
      attempt.nanos < deadline.nanos ∧ lines = forwardedLines headers := by
  have nothing : (context.remainingTimeout attempt).getD .zero = .zero ↔
      deadline.nanos ≤ attempt.nanos := by
    cases left : context.remainingTimeout attempt with
    | none =>
      rw [remainingTimeout, present] at left
      have passed : deadline.nanos < attempt.nanos :=
        Instant.checkedDurationSince_eq_none_iff.mp left
      exact iff_of_true rfl passed.le
    | some remaining =>
      have sum := (remainingTimeout_eq_some_iff present).mp left
      rw [getD_some]
      constructor
      · intro zero
        rw [zero] at sum
        exact sum.symm.le
      · intro passed
        apply Duration.eq_of_nanos
        have none : remaining.nanos = 0 := by omega
        exact none
  rw [sendUpstream]
  by_cases passed : deadline.nanos ≤ attempt.nanos
  · simp_all
  · grind

/-- The timeout header is forwarded. -/
theorem mem_sentTimeouts_iff {timeout : Duration} :
    timeout ∈ sentTimeouts headers ↔
      ∃ line ∈ forwardedLines headers, lineTimeout line = some timeout := by
  rw [sentTimeouts, List.mem_filterMap]
  constructor
  · rintro ⟨line, member, asked⟩
    refine ⟨line, List.mem_filter.mpr ⟨member, ?_⟩, asked⟩
    have named : line.1 = timeoutHeader := by
      by_contra other
      rw [lineTimeout, if_neg other] at asked
      cases asked
    rw [named]
    decide +kernel
  · rintro ⟨line, member, asked⟩
    exact ⟨line, List.mem_of_mem_filter member, asked⟩

/-- The timeout in effect is one that the client sent. -/
theorem timeout_sent {own : Duration} (asked : timeoutFromHeaders (propagation headers) = some own) :
    own ∈ sentTimeouts headers := by
  obtain ⟨_, parsed, rfl⟩ := map_eq_some_iff.mp asked
  obtain ⟨_, found, read⟩ := bind_eq_some_iff.mp parsed
  have small : toAsciiLowercase timeoutHeader = timeoutHeader := by decide +kernel
  rw [headerValue_of_lower (lower_propagation headers) small, get?_propagation] at found
  obtain ⟨_, member, shown⟩ := List.mem_filterMap.mp (List.mem_of_getLast? found)
  obtain ⟨line, kept, rfl⟩ := List.mem_map.mp member
  obtain ⟨place, named⟩ := List.mem_filter.mp kept
  refine List.mem_filterMap.mpr ⟨line, place, ?_⟩
  rw [lineTimeout, if_pos (by simpa using named), shown, bind_some, read]
  rfl

/-- The granted time has run out at the attempt. -/
def Exhausted (headers : RequestHeaders) (timeouts : GatewayTimeouts) (readings : GatewayReadings)
    (attempt : Instant) : Prop :=
  readings.now.nanos + granted headers timeouts readings ≤ attempt.nanos

/-- Without a timeout in effect, each timeout that was sent ends within the time of the gateway.
With one, the clock has not advanced since the request arrived, and no timeout that was sent is
larger than the one in effect or than the time of the gateway. -/
def Harmless (headers : RequestHeaders) (timeouts : GatewayTimeouts) (readings : GatewayReadings)
    (attempt : Instant) : Prop :=
  match timeoutFromHeaders (propagation headers) with
  | none => ∀ timeout ∈ sentTimeouts headers,
      attempt.nanos + timeout.nanos ≤ readings.now.nanos + timeouts.effective.nanos
  | some own => readings.read = readings.arrival ∧ attempt = readings.now ∧
      own ≤ timeouts.effective ∧ ∀ timeout ∈ sentTimeouts headers, timeout ≤ own

theorem harmless_iff (later : readings.now ≤ attempt)
    (unspent : ¬ Exhausted headers timeouts readings attempt) :
    Harmless headers timeouts readings attempt ↔
      ∀ timeout ∈ sentTimeouts headers, attempt.nanos + timeout.nanos ≤
        readings.now.nanos + granted headers timeouts readings := by
  have arrived : readings.arrival.nanos ≤ readings.read.nanos := readings.arrived
  have after : readings.now.nanos ≤ attempt.nanos := later
  unfold Exhausted at unspent
  unfold Harmless
  cases asked : timeoutFromHeaders (propagation headers) with
  | none => simp only [granted, asked]
  | some own =>
    simp only [granted, asked] at unspent ⊢
    constructor
    · rintro ⟨still, atOnce, limit, all⟩ timeout member
      have within : own.nanos ≤ timeouts.effective.nanos := limit
      have bounded : timeout.nanos ≤ own.nanos := all timeout member
      rw [still, atOnce]
      omega
    · intro all
      -- the timeout in effect was sent itself, and leaves no room for time to pass
      have bound := all own (timeout_sent asked)
      refine ⟨Instant.eq_of_nanos (by omega), Instant.eq_of_nanos (by omega), ?_, ?_⟩
      · have within : own.nanos ≤ timeouts.effective.nanos := by omega
        exact within
      · intro timeout member
        have bounded := all timeout member
        have within : timeout.nanos ≤ own.nanos := by omega
        exact within

theorem forward_bounded_iff
    (built : requestContext headers timeouts generated readings = some context)
    (later : readings.now ≤ attempt) :
    ForwardBounded context headers attempt ↔
      Exhausted headers timeouts readings attempt ∨ Harmless headers timeouts readings attempt := by
  obtain ⟨deadline, present, _⟩ := requestContext_remaining built later
  by_cases spent : Exhausted headers timeouts readings attempt
  · refine iff_of_true ?_ (.inl spent)
    intro lines sent
    have before := ((sendUpstream_eq_some_iff present).mp sent).1
    unfold Exhausted at spent
    omega
  · rw [or_iff_right spent, harmless_iff later spent]
    unfold Exhausted at spent
    constructor
    · intro bounded timeout member
      obtain ⟨line, forwarded, asked⟩ := mem_sentTimeouts_iff.mp member
      have sent : sendUpstream context headers attempt = some (forwardedLines headers) :=
        (sendUpstream_eq_some_iff present).mpr ⟨by omega, rfl⟩
      obtain ⟨remaining, found, limit⟩ := bounded _ sent line forwarded timeout asked
      have within : timeout.nanos ≤ remaining.nanos := limit
      have sum := (remainingTimeout_eq_some_iff present).mp found
      omega
    · intro all lines sent line member timeout asked
      obtain ⟨_, rfl⟩ := (sendUpstream_eq_some_iff present).mp sent
      have bounded := all timeout (mem_sentTimeouts_iff.mpr ⟨line, member, asked⟩)
      cases found : context.remainingTimeout attempt with
      | none =>
        rw [remainingTimeout, present] at found
        have passed : deadline.nanos < attempt.nanos :=
          Instant.checkedDurationSince_eq_none_iff.mp found
        omega
      | some remaining =>
        have sum := (remainingTimeout_eq_some_iff present).mp found
        have within : timeout.nanos ≤ remaining.nanos := by omega
        exact ⟨remaining, rfl, within⟩

end Forwarding

/-! ## Both ways out -/

/-- A call of a client on a context, or an attempt of the gateway to send a request on. -/
inductive Outbound where
  | call (context : Context) (options : RpcClientOptions) (now later : Instant)
      (ordered : now ≤ later)
  | forward (headers : RequestHeaders) (timeouts : GatewayTimeouts) (generated : TraceId)
      (readings : GatewayReadings) (attempt : Instant) (later : readings.now ≤ attempt)

namespace Outbound

/-- What is sent keeps to the deadline of the context. -/
def Bounded : Outbound → Prop
  | .call context options now later _ => ∀ deadline, context.deadline = some deadline →
      CallBounded deadline now (clientRequest context options now later)
  | .forward headers timeouts generated readings attempt _ => ∀ context,
      requestContext headers timeouts generated readings = some context →
        ForwardBounded context headers attempt

/-- The deadline of the context has not passed when the call is built. Nothing remains for the
attempt, or the timeouts that the client sent are harmless. -/
def InTime : Outbound → Prop
  | .call context _ _ later _ => ∀ deadline, context.deadline = some deadline → later ≤ deadline
  | .forward headers timeouts generated readings attempt _ =>
      (requestContext headers timeouts generated readings).isSome →
        Exhausted headers timeouts readings attempt ∨ Harmless headers timeouts readings attempt

end Outbound

/-- A client request keeps to the deadline of its context if and only if the deadline has not
passed when the request is built. An attempt of the gateway forwards no timeout larger than what
remains for it, if and only if nothing remains and nothing is sent, or the timeouts that the
client sent are harmless. -/
theorem outbound_deadline_iff (outbound : Outbound) : outbound.Bounded ↔ outbound.InTime := by
  cases outbound with
  | call context options now later ordered =>
    exact forall₂_congr fun deadline present => call_bounded_iff present options ordered
  | forward headers timeouts generated readings attempt later =>
    constructor
    · intro bounded entered
      obtain ⟨context, built⟩ := isSome_iff_exists.mp entered
      exact (forward_bounded_iff built later).mp (bounded context built)
    · intro inTime context built
      exact (forward_bounded_iff built later).mpr (inTime (by rw [built]; rfl))

/-! ### Timeouts that are too long -/

namespace TooLong

def seconds (count : UInt64) : Duration := .fromMillis (count * 1000)

def options : RpcClientOptions := ⟨seconds 5⟩

/-- A context that is due one second after the start of the clock. -/
def due : Context :=
  { Context.backgroundWithRequestIdAndTraceId "request-1" "trace-1" with
    deadline := some (.ofNanos (10 ^ 9)) }

/-- A route with two seconds. -/
def timeouts : GatewayTimeouts := ⟨some (seconds 2), none, none⟩

/-- A request that arrives at the start of the clock. -/
def arrival : GatewayReadings where
  arrival := .zero
  read := .zero
  now := .zero
  arrived := by decide
  ordered := by decide

def generated : TraceId := ⟨"trace-gateway", rfl⟩

/-- The client says that it waits for a minute. -/
def patient : RequestHeaders where
  lines := [("x-roze-timeout-ms", ⟨[54, 48, 48, 48, 48]⟩)]
  lower := by decide +kernel

/-- The client says nothing. -/
def silent : RequestHeaders := .empty

end TooLong

open TooLong in
/-- A second after its deadline a call gets the default of five seconds and no metadata. The
gateway forwards a minute when two seconds remain. -/
theorem timeout_too_long :
    (clientRequest due options (.ofNanos (2 * 10 ^ 9))
      (.ofNanos (2 * 10 ^ 9))).timeout = seconds 5 ∧
    (clientRequest due options (.ofNanos (2 * 10 ^ 9))
      (.ofNanos (2 * 10 ^ 9))).timeoutMetadata = none ∧
    (requestContext patient timeouts generated arrival).map (fun context =>
      (context.remainingTimeout .zero, (sendUpstream context patient .zero).map (·.map lineTimeout))) =
        some (some (seconds 2), some [some (seconds 60)]) := by
  decide +kernel

open TooLong in
/-- Before the deadline a call keeps to it. A request without a timeout is forwarded without. -/
theorem outbound_deadline_iff_in_time :
    (due.deadline = some (.ofNanos (10 ^ 9)) ∧
      CallBounded (.ofNanos (10 ^ 9)) .zero (clientRequest due options .zero .zero)) ∧
    ∃ context, requestContext silent timeouts generated arrival = some context ∧
      ForwardBounded context silent (.ofNanos (10 ^ 9)) := by
  have ordered : Instant.zero ≤ Instant.zero := by decide
  have later : arrival.now ≤ .ofNanos (10 ^ 9) := by decide
  have call := (outbound_deadline_iff (.call due options .zero .zero ordered)).mpr
  have forward := (outbound_deadline_iff
    (.forward silent timeouts generated arrival (.ofNanos (10 ^ 9)) later)).mpr
  have entered : (requestContext silent timeouts generated arrival).isSome := by decide +kernel
  have unasked : timeoutFromHeaders (propagation silent) = none := by decide +kernel
  obtain ⟨context, built⟩ := isSome_iff_exists.mp entered
  refine ⟨⟨rfl, call ?_ _ rfl⟩, context, built, forward (fun _ => .inr ?_) context built⟩
  · rintro _ ⟨⟩
    decide
  · rw [Harmless, unasked]
    intro timeout member
    cases member

end Roze.Deadline
