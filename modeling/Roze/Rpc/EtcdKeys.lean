import Roze.Library.Text
import Roze.Rpc.MemoryRegistry

/-!
# The keys of the etcd registry

An instance is registered under the prefix of the registry, the name of its service and its address,
with slashes between them. A discovery asks for the keys from the prefix of the service on, up to the
first byte string after all those that begin with it. Names and addresses may have slashes too, so
the keys of one service can begin with the prefix of another.
-/

namespace Roze.Rpc

open Roze.Library List

def normalizeEtcdRegistryPrefix (text : String) : String :=
  let text := trimMatches '/' (trim text)
  if text = "" then "/roze/services" else "/" ++ text

/-- What the keys of a service begin with. -/
def etcdServicePrefix (registry name : String) : String :=
  normalizeEtcdRegistryPrefix registry ++ "/" ++ name ++ "/"

/-- The key of an instance. -/
def etcdInstanceKey (registry name addr : String) : String := etcdServicePrefix registry name ++ addr

/-- The last byte below 0xff is increased, and what follows it is cut off. -/
def etcdPrefixEnd (start : List UInt8) : List UInt8 :=
  match start.reverse.dropWhile (· = 0xff) with
  | [] => []
  | last :: front => front.reverse ++ [last + 1]

def asBytes (text : String) : List UInt8 := text.toByteArray.data.toList

/-- Keys are compared byte by byte; a range has its first key and ends before the other one. -/
def InRange (first last key : List UInt8) : Prop := ¬ key < first ∧ key < last

instance (first last key : List UInt8) : Decidable (InRange first last key) := instDecidableAnd

/-- The discovery of a service asks for the key. -/
def Discovers (registry name key : String) : Prop :=
  let start := asBytes (etcdServicePrefix registry name)
  InRange start (etcdPrefixEnd start) (asBytes key)

instance (registry name key : String) : Decidable (Discovers registry name key) :=
  inferInstanceAs (Decidable (InRange _ _ _))

/-- Every instance that is found takes the name that was asked for. -/
def discover (registry name : String) (registered : List ServiceInstance) : List ServiceInstance :=
  let found := registered.filter fun item =>
    Discovers registry name (etcdInstanceKey registry item.name item.addr)
  found.map fun item => { item with name }

/-! ## Ranges of byte strings -/

section Ranges

variable {tail : List UInt8} (full : ∀ byte ∈ tail, byte = 0xff)
include full

theorem not_lt_full_iff (key : List UInt8) : ¬ key < tail ↔ tail <+: key := by
  induction tail generalizing key with
  | nil => simp
  | cons byte tail ih =>
    obtain ⟨rfl, rest⟩ := forall_mem_cons.mp full
    cases key with
    | nil => simp
    | cons first key =>
      rw [cons_lt_cons_iff, cons_prefix_cons, ← ih rest]
      grind

/-- Between a byte string and its end lie those that it begins. -/
theorem inRange_append_iff {last : UInt8} (low : last ≠ 0xff) (front key : List UInt8) :
    InRange (front ++ last :: tail) (front ++ [last + 1]) key ↔ front ++ last :: tail <+: key := by
  induction front generalizing key with
  | nil =>
    cases key with
    | nil => simp [InRange]
    | cons first key =>
      have next (byte : UInt8) : byte < last + 1 ↔ byte ≤ last := by
        have bound := last.toNat_lt
        grind
      simp only [InRange, nil_append, cons_lt_cons_iff, cons_prefix_cons,
        ← not_lt_full_iff full, not_lt_nil, and_false, or_false, next]
      grind
  | cons byte front ih =>
    cases key with
    | nil => simp [InRange]
    | cons first key =>
      simp only [InRange, cons_append, cons_lt_cons_iff, cons_prefix_cons,
        ← ih key]
      grind

end Ranges

/-- The range has the keys with the beginning. -/
theorem inRange_etcdPrefixEnd_iff {start : List UInt8} (low : ∃ byte ∈ start, byte ≠ 0xff)
    (key : List UInt8) : InRange start (etcdPrefixEnd start) key ↔ start <+: key := by
  have whole := takeWhile_append_dropWhile (p := fun byte => byte = 0xff) (l := start.reverse)
  cases left : start.reverse.dropWhile (fun byte => byte = 0xff) with
  | nil =>
    obtain ⟨byte, member, below⟩ := low
    have all := dropWhile_eq_nil_iff.mp left byte (mem_reverse.mpr member)
    simp_all
  | cons last front =>
    have below := head_dropWhile_not (fun byte => decide (byte = 0xff))
      (l := start.reverse) (by simp [left])
    simp only [left, head_cons, decide_eq_false_iff_not] at below
    have full : ∀ byte ∈ (start.reverse.takeWhile (fun byte => byte = 0xff)).reverse, byte = 0xff := by
      intro byte member
      have held := mem_takeWhile_imp (mem_reverse.mp member)
      exact of_decide_eq_true held
    have split : start = front.reverse ++
        last :: (start.reverse.takeWhile (fun byte => byte = 0xff)).reverse := by grind
    have ending : etcdPrefixEnd start = front.reverse ++ [last + 1] := by rw [etcdPrefixEnd, left]
    rw [ending, split]
    exact inRange_append_iff full below front.reverse key

/-! ## Keys of services -/

/-- The bytes of a longer text. -/
theorem asBytes_append (first second : String) :
    asBytes (first ++ second) = asBytes first ++ asBytes second := by
  simp [asBytes]

/-- A key that a discovery asks for goes on from the name and a slash. -/
theorem discovers_iff (registry name other addr : String) :
    Discovers registry name (etcdInstanceKey registry other addr) ↔
      ∃ rest, other ++ "/" ++ addr = name ++ "/" ++ rest := by
  have slash : ∃ byte ∈ asBytes (etcdServicePrefix registry name), byte ≠ 0xff :=
    ⟨47, by simp [etcdServicePrefix, asBytes_append, show 47 ∈ asBytes "/" by decide], by decide⟩
  rw [Discovers, inRange_etcdPrefixEnd_iff slash]
  have cancel (rest : String) : etcdInstanceKey registry other addr =
      etcdServicePrefix registry name ++ rest ↔ other ++ "/" ++ addr = name ++ "/" ++ rest := by
    simp only [etcdInstanceKey, etcdServicePrefix, String.append_assoc, String.append_right_inj]
  constructor
  · rintro ⟨rest, whole⟩
    have joined : (etcdServicePrefix registry name).toByteArray ++ ⟨rest.toArray⟩ =
        (etcdInstanceKey registry other addr).toByteArray := by
      apply ByteArray.ext
      apply Array.toList_inj.mp
      simpa [asBytes] using whole
    obtain ⟨last, same, -⟩ := exists_text_of_append joined
    exact ⟨last, (cancel last).mp same⟩
  · rintro ⟨rest, same⟩
    rw [(cancel rest).mpr same, asBytes_append]
    exact prefix_append _ _

/-- A range ends right after the byte strings that begin with its start. A discovery asks for exactly
the keys of the instances of its service, and finds these, if and only if no instance of another one
has a name and an address that, joined by a slash, go on from the name and a slash. -/
theorem discovery_isolated_iff (registry name : String) (registered : List ServiceInstance) :
    (∀ start, (∃ byte ∈ start, byte ≠ 0xff) → ∀ key,
      InRange start (etcdPrefixEnd start) key ↔ start <+: key) ∧
    (((∀ item ∈ registered,
        Discovers registry name (etcdInstanceKey registry item.name item.addr) ↔ item.name = name) ∧
        discover registry name registered = registered.filter (·.name = name)) ↔
      ∀ item ∈ registered, item.name ≠ name →
        ∀ rest, item.name ++ "/" ++ item.addr ≠ name ++ "/" ++ rest) := by
  refine ⟨fun start low key => inRange_etcdPrefixEnd_iff low key, ?_⟩
  constructor
  · intro isolated item member other rest goesOn
    exact other ((isolated.1 item member).mp ((discovers_iff _ _ _ _).mpr ⟨rest, goesOn⟩))
  · intro apart
    have exact (item : ServiceInstance) (member : item ∈ registered) :
        Discovers registry name (etcdInstanceKey registry item.name item.addr) ↔ item.name = name := by
      rw [discovers_iff]
      refine ⟨fun ⟨rest, goesOn⟩ => ?_, fun same => ⟨item.addr, by rw [same]⟩⟩
      by_contra other
      exact apart item member other rest goesOn
    refine ⟨exact, ?_⟩
    rw [discover, filter_congr fun item member => decide_eq_decide.mpr (exact item member)]
    refine (map_congr_left fun item member => ?_).trans (map_id _)
    have own : item.name = name := of_decide_eq_true (mem_filter.mp member).2
    rw [← own, id]

/-- The discovery of a service finds an instance of one whose name goes on after a slash. -/
theorem other_service_discovered :
    discover "" "orders" [⟨"orders/v2", "10.0.0.1:80", 1, []⟩] =
      [⟨"orders", "10.0.0.1:80", 1, []⟩] := by
  decide +kernel

/-- Two services whose names differ. -/
theorem discovery_isolated_iff_plain :
    discover "" "orders" [⟨"orders", "10.0.0.1:80", 1, []⟩, ⟨"users", "10.0.0.2:80", 1, []⟩] =
      [⟨"orders", "10.0.0.1:80", 1, []⟩] := by
  refine ((discovery_isolated_iff "" "orders" _).2.mpr ?_).2
  intro item member other rest same
  have first := congrArg (fun text => text.toList.head?) same
  simp at member
  rcases member with rfl | rfl
  · exact other rfl
  · simp at first

end Roze.Rpc
