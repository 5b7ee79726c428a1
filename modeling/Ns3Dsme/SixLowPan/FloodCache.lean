/-
# The cache of a flooding device

A device remembers the last sequence numbers it has recorded of each originator, in flooding mode
for data and otherwise for route requests.  A number that is suppressed is not recorded again, so
the cache is a queue of the numbers in the order in which they were recorded, and not of the
distinct numbers in the order in which they last arrived.
-/
import Ns3Dsme.SixLowPan.Flooding

open Program RecentCache

namespace Ns3Dsme.SixLowPan

/-! ## What is cached -/

/-- A packet with a mesh header is looked up in the cache. -/
def looksUp (d : NetDevice) (p : Parsed) : Bool :=
  d.dataFlooding || (!d.greedyRouting && p.hasRREQ)

/-- The originator and the sequence number of a packet that is looked up in the cache. -/
def cacheKey (d : NetDevice) (packet : List Octet) : Option (MeshAddress × Octet) :=
  match parseHeaders d packet with
  | .ok p =>
    if p.hello.isNone && p.hasMesh && looksUp d p then some (p.mesh.originator, p.seqNumber)
    else none
  | .error _ => none

/-- The device keeps its configuration, and its cache is as given. -/
structure Caches (d : NetDevice) (seenPkts : MeshAddress → List Octet) (d' : NetDevice) : Prop where
  seenPkts : d'.seenPkts = seenPkts
  meshCacheLength : d'.meshCacheLength = d.meshCacheLength

theorem Caches.refl (d : NetDevice) : Caches d d.seenPkts d := ⟨rfl, rfl⟩

theorem caches_noteSeen (d : NetDevice) (a : MeshAddress) (seqNumber : Octet) :
    Caches d (d.noteSeen a seqNumber).seenPkts (d.noteSeen a seqNumber) := ⟨rfl, rfl⟩

/-- Route entries do not touch the cache. -/
theorem Caches.learn {d d' : NetDevice} {seenPkts : MeshAddress → List Octet}
    (h : Caches d seenPkts d') (originator nextAddr : MeshAddress) :
    Caches d seenPkts (d'.learn originator nextAddr) := ⟨h.seenPkts, h.meshCacheLength⟩

section

variable {d : NetDevice} {p : Parsed} {src dst : MacAddress}

/-- What a branch makes of the cache: it is left alone, or a new number is recorded first. -/
def BranchCaches (d : NetDevice) (p : Parsed) (b : Branch) : Prop :=
  if d.hasSeen p.mesh.originator p.seqNumber = true then
    b = { device := d, continues := false }
  else Caches d (d.noteSeen p.mesh.originator p.seqNumber).seenPkts b.device

/-- A number that was seen is looked up only. -/
theorem branchCaches_of_seen (hseen : d.hasSeen p.mesh.originator p.seqNumber = true) :
    BranchCaches d p { device := d, continues := false } := by
  unfold BranchCaches
  rw [if_pos hseen]

theorem branchCaches_of_not_seen {b : Branch}
    (hseen : d.hasSeen p.mesh.originator p.seqNumber = false)
    (h : Caches d (d.noteSeen p.mesh.originator p.seqNumber).seenPkts b.device) :
    BranchCaches d p b := by
  unfold BranchCaches
  rw [hseen, if_neg Bool.false_ne_true]
  exact h

theorem post_receiveFlooding_caches : Post (d.receiveFlooding p) (BranchCaches d p) := by
  refine NetDevice.flooded_receiveFlooding.imp fun b hb => ?_
  cases hb with
  | seen hseen => exact branchCaches_of_seen hseen
  | dropped hseen => exact branchCaches_of_not_seen hseen (caches_noteSeen d _ _)
  | forwarded hseen => exact branchCaches_of_not_seen hseen (caches_noteSeen d _ _)
  | arrived hseen => exact branchCaches_of_not_seen hseen (caches_noteSeen d _ _)

theorem post_receiveRREQ_caches : Post (d.receiveRREQ src p) (BranchCaches d p) := by
  refine NetDevice.requested_receiveRREQ.imp fun b hb => ?_
  cases hb with
  | seen hseen => exact branchCaches_of_seen hseen
  | dropped hseen => exact branchCaches_of_not_seen hseen (caches_noteSeen d _ _)
  | forwarded hseen next =>
    exact branchCaches_of_not_seen hseen ((caches_noteSeen d _ _).learn _ next)
  | replied hseen next =>
    exact branchCaches_of_not_seen hseen ((caches_noteSeen d _ _).learn _ next)

/-- The other branches leave the cache alone. -/
theorem caches_of_relayed {finalDst : MeshAddress} {hopsLeft : Octet} {f : Forwarding} {b : Branch}
    (h : d.Relayed finalDst hopsLeft f b) : Caches d d.seenPkts b.device := by
  cases h with
  | arrived => exact Caches.refl d
  | dropped => exact Caches.refl d
  | forwarded => exact Caches.refl d

theorem post_receiveRREP_caches :
    Post (d.receiveRREP src p) fun b => Caches d d.seenPkts b.device := by
  refine NetDevice.replied_receiveRREP.imp fun b hb => ?_
  cases hb with
  | dropped => exact Caches.refl d
  | forwarded _ next => exact (Caches.refl d).learn _ next
  | arrived _ next => exact (Caches.refl d).learn _ next

theorem post_receiveMesh_of_looksUp (h : looksUp d p = true) :
    Post (d.receiveMesh src p) (BranchCaches d p) := by
  unfold looksUp at h
  unfold NetDevice.receiveMesh
  cases hflooding : d.dataFlooding with
  | true =>
    rw [if_pos rfl]
    exact post_receiveFlooding_caches
  | false =>
    rw [hflooding, Bool.false_or, Bool.and_eq_true, Bool.not_eq_true'] at h
    rw [if_neg Bool.false_ne_true, h.1, if_neg Bool.false_ne_true, h.2, if_pos rfl]
    exact post_receiveRREQ_caches

theorem post_receiveMesh_of_not_looksUp (h : looksUp d p = false) :
    Post (d.receiveMesh src p) fun b => Caches d d.seenPkts b.device := by
  unfold looksUp at h
  rw [Bool.or_eq_false_iff] at h
  unfold NetDevice.receiveMesh
  rw [h.1, if_neg Bool.false_ne_true]
  cases hgreedy : d.greedyRouting with
  | true =>
    rw [if_pos rfl]
    exact NetDevice.relayed_receiveGreedy.imp fun b hb => caches_of_relayed hb
  | false =>
    rw [hgreedy] at h
    rw [if_neg Bool.false_ne_true, show p.hasRREQ = false from h.2, if_neg Bool.false_ne_true]
    split
    · exact post_receiveRREP_caches
    · split
      · exact NetDevice.relayed_receiveLoad.imp fun b hb => caches_of_relayed hb
      · split
        · exact Caches.refl d
        · exact Caches.refl d

/-- A hello message does not touch the cache. -/
theorem caches_receiveHello (hello : SixLowPanHelloHeader) :
    Caches d d.seenPkts (d.receiveHello hello) := ⟨rfl, rfl⟩

end

/-! ## What a reception makes of the cache -/

section

variable {d : NetDevice} {packet : List Octet} {src dst : MacAddress}

/-- The key of a packet whose headers can be read. -/
theorem cacheKey_eq {p : Parsed} (hparse : parseHeaders d packet = .ok p) :
    cacheKey d packet = if p.hello.isNone && p.hasMesh && looksUp d p then
      some (p.mesh.originator, p.seqNumber) else none := by
  unfold cacheKey
  rw [hparse]

/-- A packet that is not looked up leaves the cache alone. -/
theorem post_receiveFromDevice_of_no_key (hkey : cacheKey d packet = none) :
    Post (receiveFromDevice d packet src dst) fun r => Caches d d.seenPkts r.1 := by
  cases hparse : parseHeaders d packet with
  | error e =>
    unfold receiveFromDevice
    rw [hparse]
    trivial
  | ok p =>
    rw [cacheKey_eq hparse] at hkey
    cases hhello : p.hello with
    | some hello =>
      rw [receiveFromDevice_of_hello hparse hhello]
      exact caches_receiveHello hello
    | none =>
      cases hmesh : p.hasMesh with
      | false =>
        rw [receiveFromDevice_of_not_mesh hparse hhello hmesh]
        exact post_bind fun up _ => Caches.refl d
      | true =>
        have hlook : looksUp d p = false := by
          rw [hhello, hmesh] at hkey
          cases hlook : looksUp d p with
          | false => rfl
          | true =>
            rw [hlook] at hkey
            cases hkey
        rw [receiveFromDevice_of_mesh hparse hhello hmesh]
        refine (post_receiveMesh_of_not_looksUp hlook).bind fun b hb => ?_
        split
        · exact post_bind fun up _ => hb
        · exact hb

/-- A packet that is looked up: a number in the cache suppresses it, and any other is recorded. -/
theorem post_receiveFromDevice_of_key {a : MeshAddress} {seqNumber : Octet}
    (hkey : cacheKey d packet = some (a, seqNumber)) :
    Post (receiveFromDevice d packet src dst) fun r =>
      if d.hasSeen a seqNumber = true then r = (d, [])
      else Caches d (d.noteSeen a seqNumber).seenPkts r.1 := by
  cases hparse : parseHeaders d packet with
  | error e =>
    unfold receiveFromDevice
    rw [hparse]
    trivial
  | ok p =>
    rw [cacheKey_eq hparse] at hkey
    split at hkey
    · rename_i hall
      rw [Bool.and_eq_true, Bool.and_eq_true] at hall
      obtain ⟨⟨hhello, hmesh⟩, hlook⟩ := hall
      cases hkey
      rw [receiveFromDevice_of_mesh hparse (Option.isNone_iff_eq_none.mp hhello) hmesh]
      refine (post_receiveMesh_of_looksUp hlook).bind fun b hb => ?_
      unfold BranchCaches at hb
      by_cases hseen : d.hasSeen p.mesh.originator p.seqNumber = true
      · rw [if_pos hseen] at hb
        simp only [if_pos hseen]
        subst hb
        rfl
      · rw [if_neg hseen] at hb
        simp only [if_neg hseen]
        split
        · exact post_bind fun up _ => hb
        · exact hb
    · cases hkey

end

/-! ## Runs -/

/-- A frame that the device below passes up. -/
structure Reception where
  packet : List Octet
  src : MacAddress
  dst : MacAddress

/-- **A device that receives frames**, in any mode and from anyone. -/
def receivingDevice : Machine NetDevice Reception PacketFault where
  enabled _ _ := True
  step d i := (receiveFromDevice d i.packet i.src i.dst).map Prod.fst

instance (d : NetDevice) (i : Reception) : Decidable (receivingDevice.enabled d i) := .isTrue trivial

/-- The sequence numbers that have arrived from each originator. -/
abbrev Arrivals := MeshAddress → List Octet

def noteArrival (arrivals : Arrivals) (d : NetDevice) (i : Reception) (_ : NetDevice) : Arrivals :=
  match cacheKey d i.packet with
  | some (a, seqNumber) => fun b => if b = a then arrivals b ++ [seqNumber] else arrivals b
  | none => arrivals

/-- How a packet of a flood or a request is sent on. -/
def relay (d : NetDevice) (p : Parsed) : Forwarding :=
  let mesh := { p.mesh with hopsLeft := p.mesh.hopsLeft - 1 }
  if d.dataFlooding then .broadcast (mesh.serialize ++ (serializeBc0 p.seqNumber ++ p.rest))
  else .doSendRREQ (mesh.serialize ++ (serializeBc0 p.seqNumber ++ (serializeRREQ ++ p.rest)))

/-- What the destination does: data is handed up, and a request is answered. -/
def answer (d : NetDevice) (p : Parsed) (src dst : MacAddress) :
    Except PacketFault (List Effect) :=
  if d.dataFlooding then d.handUp p src dst else .ok [.sendRREP p.mesh.originator]

/-- `ReceiveFromDevice` does not suppress the packet: with hops left it is sent on, unless it is the
device's own, and at its destination it is answered. -/
structure Passes (d : NetDevice) (own : MeshAddress) (p : Parsed) (packet : List Octet)
    (src dst : MacAddress) : Prop where
  relayed : p.mesh.finalDst ≠ own → p.mesh.hopsLeft ≠ 0 → p.mesh.originator ≠ own →
    ∃ d', receiveFromDevice d packet src dst = .ok (d', [.forward (relay d p)])
  arrived : p.mesh.finalDst = own →
    ∃ d', receiveFromDevice d packet src dst = answer d p src dst >>= fun up => .ok (d', up)

/-- The cache of each originator holds the last `length` of the numbers in `latest`, in their order
and without duplicates, and a packet with any other number is not suppressed.  The addresses of the
device and, for a request, of the sender are those of an 802.15.4 device. -/
structure HoldsLast (length : ℕ) (latest : MeshAddress → List Octet) (d : NetDevice) : Prop where
  seenPkts : ∀ a, d.seenPkts a = (latest a).rtake length
  count : ∀ a, (d.seenPkts a).length = min length (latest a).length
  nodup : ∀ a, (d.seenPkts a).Nodup
  fresh : ∀ (packet : List Octet) (p : Parsed) (src dst : MacAddress) (own sender : MeshAddress),
    parseHeaders d packet = .ok p → p.hello = none → p.hasMesh = true → looksUp d p = true →
    d.own = .ok own → d.dataFlooding = true ∨ get16MacFrom48Mac src = .ok sender →
    p.seqNumber ∉ (latest p.mesh.originator).rtake length → Passes d own p packet src dst

/-- The cache is what the stream of arrivals has left in it. -/
structure CacheInv (length : ℕ) (arrivals : Arrivals) (d : NetDevice) : Prop where
  meshCacheLength : d.meshCacheLength.toNat = length
  seenPkts : ∀ a, d.seenPkts a = (admitted length (arrivals a)).rtake length
  nodup : ∀ a, (d.seenPkts a).Nodup

variable {length : ℕ} {arrivals : Arrivals} {d d' : NetDevice}

/-- An arrival is offered to the cache of its originator. -/
theorem CacheInv.arrive (h : CacheInv length arrivals d) {a : MeshAddress} {seqNumber : Octet}
    (hlength : d'.meshCacheLength = d.meshCacheLength)
    (hseen : ∀ b, d'.seenPkts b =
      if b = a then offer length (d.seenPkts a) seqNumber else d.seenPkts b) :
    CacheInv length (fun b => if b = a then arrivals b ++ [seqNumber] else arrivals b) d' := by
  constructor
  · rw [hlength]
    exact h.meshCacheLength
  · intro b
    rw [hseen b]
    by_cases hb : b = a
    · subst hb
      rw [if_pos rfl, if_pos rfl, h.seenPkts, offer_rtake, admitted_append]
    · rw [if_neg hb, if_neg hb]
      exact h.seenPkts b
  · intro b
    rw [hseen b]
    split
    · exact nodup_offer length (d.seenPkts a) seqNumber (h.nodup a)
    · exact h.nodup b

/-- **One reception** keeps the invariant. -/
theorem CacheInv.step (h : CacheInv length arrivals d) (i : Reception) :
    Post (receivingDevice.step d i) fun d' => CacheInv length (noteArrival arrivals d i d') d' := by
  refine (wp_map _ _ _ _).mpr ?_
  unfold noteArrival
  cases hkey : cacheKey d i.packet with
  | none =>
    refine (post_receiveFromDevice_of_no_key hkey).imp fun r hr => ?_
    exact ⟨hr.meshCacheLength ▸ h.meshCacheLength, fun a => hr.seenPkts ▸ h.seenPkts a,
      fun a => hr.seenPkts ▸ h.nodup a⟩
  | some k =>
    obtain ⟨a, seqNumber⟩ := k
    refine (post_receiveFromDevice_of_key hkey).imp fun r hr => ?_
    by_cases hseen : d.hasSeen a seqNumber = true
    · rw [if_pos hseen] at hr
      subst hr
      refine h.arrive rfl fun b => ?_
      unfold offer
      rw [if_pos (show (d.seenPkts a).contains seqNumber = true from hseen)]
      split
      · rename_i hb
        rw [hb]
      · rfl
    · rw [if_neg hseen] at hr
      refine h.arrive hr.meshCacheLength fun b => ?_
      rw [hr.seenPkts, seenPkts_noteSeen, h.meshCacheLength]
      unfold offer
      rw [if_neg (show ¬ (d.seenPkts a).contains seqNumber = true from hseen)]

/-- A packet with a number that is not in the cache goes on. -/
theorem passes_of_not_seen {packet : List Octet} {p : Parsed} {src dst : MacAddress}
    {own sender : MeshAddress} (hparse : parseHeaders d packet = .ok p) (hhello : p.hello = none)
    (hmesh : p.hasMesh = true) (hlook : looksUp d p = true) (hown : d.own = .ok own)
    (hsender : d.dataFlooding = true ∨ get16MacFrom48Mac src = .ok sender)
    (hseen : d.hasSeen p.mesh.originator p.seqNumber = false) :
    Passes d own p packet src dst := by
  have hown' : (d.noteSeen p.mesh.originator p.seqNumber).own = .ok own := hown
  have hmode : receiveFromDevice d packet src dst = _ :=
    receiveFromDevice_of_mesh hparse hhello hmesh
  unfold NetDevice.receiveMesh at hmode
  unfold looksUp at hlook
  cases hflooding : d.dataFlooding
  case' true =>
    rw [if_pos hflooding] at hmode
    unfold NetDevice.receiveFlooding at hmode
    simp only [hseen, hown', bind, Except.bind] at hmode
  case' false =>
    rw [hflooding, Bool.false_or, Bool.and_eq_true, Bool.not_eq_true'] at hlook
    have hnext : get16MacFrom48Mac src = .ok sender := by
      rcases hsender with h | h
      · rw [h] at hflooding
        cases hflooding
      · exact h
    rw [hflooding, if_neg Bool.false_ne_true, hlook.1, if_neg Bool.false_ne_true, hlook.2,
      if_pos rfl] at hmode
    unfold NetDevice.receiveRREQ at hmode
    simp only [hseen, hown', hnext, bind, Except.bind] at hmode
  -- what follows the cache is the same in both modes
  all_goals
    constructor
    · intro hother hleft hforeign
      simp only [hother, hleft, hforeign, ne_eq, not_false_eq_true, or_self, if_true, if_false]
        at hmode
      exact ⟨_, by rw [hmode, relay, hflooding]; rfl⟩
    · intro hfinal
      simp only [hfinal, ne_eq, not_true_eq_false, if_false] at hmode
      exact ⟨_, by rw [hmode, answer, hflooding]; rfl⟩

/-- What the invariant says of the numbers that were recorded. -/
theorem CacheInv.holdsLast (h : CacheInv length arrivals d) :
    HoldsLast length (fun a => admitted length (arrivals a)) d := by
  constructor
  · exact h.seenPkts
  · intro a
    rw [h.seenPkts, length_rtake]
  · exact h.nodup
  · intro packet p src dst own sender hparse hhello hmesh hlook hown hsender hnot
    refine passes_of_not_seen hparse hhello hmesh hlook hown hsender ?_
    unfold NetDevice.hasSeen
    rw [h.seenPkts, Bool.eq_false_iff, ne_eq, List.contains_iff_mem]
    exact hnot

/-- **The cache holds the last numbers that were recorded.**  After any receptions the cache of an
originator holds the last numbers of those that were not suppressed when they arrived, and a
number that is not among them is not suppressed. -/
theorem holdsLast_of_run (d d' : NetDevice) (is : List Reception) (arrivals : Arrivals)
    (hnew : ∀ a, d.seenPkts a = [])
    (hrun : (receivingDevice.recording noteArrival).Run (fun _ _ => True) (fun _ => [], d) is
      (arrivals, d')) :
    HoldsLast d.meshCacheLength.toNat
      (fun a => admitted d.meshCacheLength.toNat (arrivals a)) d' := by
  have hstart : CacheInv d.meshCacheLength.toNat (fun _ => []) d := by
    constructor
    · rfl
    · intro a
      rw [hnew a]
      exact List.drop_nil.symm
    · intro a
      rw [hnew a]
      exact List.nodup_nil
  exact (hrun.recorded (CacheInv d.meshCacheLength.toNat)
    (fun b s i h _ _ => h.step i) hstart).holdsLast

/-! ## Runs with duplicates -/

/-- A device in flooding mode that remembers two numbers of each originator. -/
def cachingDevice : NetDevice where
  useHC1 := false
  dataFlooding := true
  greedyRouting := false
  loadRouting := false
  direct := false
  address := .mac48 0 0 0 0 0 1
  meshCacheLength := 2

/-- A packet of one originator for another node. -/
def flooded (seqNumber : Octet) : Reception where
  packet := (⟨.short 0 5, .short 0 9, 14⟩ : SixLowPanMesh).serialize ++ serializeBc0 seqNumber
  src := .mac48 0 0 0 0 0 5
  dst := .mac48 0xff 0xff 0xff 0xff 0xff 0xff

/-- The distinct numbers of a stream, each where it arrived first. -/
def firstArrivals (stream : List Octet) : List Octet := stream.reverse.dedup.reverse

/-- After 1, 2, 3, 1, 3, 2 the cache holds 1 and 2 and suppresses 1.  The last two distinct numbers
are 3 and 2 if each counts where it arrived last, and 2 and 3 if it counts where it arrived
first. -/
theorem not_holdsLast_distinct :
    ∃ arrivals d', (receivingDevice.recording noteArrival).Run (fun _ _ => True)
        (fun _ => [], cachingDevice) ([1, 2, 3, 1, 3, 2].map flooded) (arrivals, d') ∧
      arrivals (.short 0 5) = [1, 2, 3, 1, 3, 2] ∧ d'.seenPkts (.short 0 5) = [1, 2] ∧
      ¬ HoldsLast 2 (fun a => (arrivals a).dedup) d' ∧
      ¬ HoldsLast 2 (fun a => firstArrivals (arrivals a)) d' := by
  obtain ⟨⟨arrivals, d'⟩, hrun, hend⟩ := Machine.exists_run_of_exec
    (m := receivingDevice.recording noteArrival) (fun _ _ => true)
    (fun c => c.1 (.short 0 5) == [1, 2, 3, 1, 3, 2] && c.2.seenPkts (.short 0 5) == [1, 2])
    (fun _ => [], cachingDevice) ([1, 2, 3, 1, 3, 2].map flooded) (by decide +kernel)
  rw [Bool.and_eq_true, beq_iff_eq, beq_iff_eq] at hend
  obtain ⟨harrivals, hcache⟩ : arrivals (.short 0 5) = [1, 2, 3, 1, 3, 2] ∧
      d'.seenPkts (.short 0 5) = [1, 2] := hend
  refine ⟨arrivals, d', hrun.mono fun _ _ _ => trivial, harrivals, hcache, fun h => ?_,
    fun h => ?_⟩
  · have hseen := h.seenPkts (.short 0 5)
    rw [hcache, harrivals] at hseen
    exact absurd hseen (by decide)
  · have hseen := h.seenPkts (.short 0 5)
    rw [hcache, harrivals] at hseen
    exact absurd hseen (by decide)

/-- A number that comes back after two others is recorded again. -/
theorem holdsLast_of_run_four :
    ∃ arrivals d', (receivingDevice.recording noteArrival).Run (fun _ _ => True)
        (fun _ => [], cachingDevice) ([255, 0, 1, 255].map flooded) (arrivals, d') ∧
      HoldsLast 2 (fun a => admitted 2 (arrivals a)) d' := by
  obtain ⟨⟨arrivals, d'⟩, hrun, -⟩ := Machine.exists_run_of_exec
    (m := receivingDevice.recording noteArrival) (fun _ _ => true) (fun _ => true)
    (fun _ => [], cachingDevice) ([255, 0, 1, 255].map flooded) (by decide +kernel)
  have hrun' := hrun.mono (D := fun _ _ => True) fun _ _ _ => trivial
  exact ⟨arrivals, d', hrun', holdsLast_of_run cachingDevice d' _ arrivals (fun _ => rfl) hrun'⟩

end Ns3Dsme.SixLowPan
