/-
# Packet tags in lists that share their tails

Each list points to its last tag, and each tag to the one that was added before it; each counts the
pointers to it.  A list that is copied joins the tree at the same place.  `Remove` and `Replace`
work in place up to the first tag with several pointers, and copy from there on.

What is behind the tags is memory that can be freed too early or never: a pointer to a tag that is
not allocated is a fault.
-/
import Ns3Dsme.LrWpan.Basic
import Ns3Dsme.Lib.Machine
import Ns3Dsme.Lib.Octets
import Ns3Dsme.Lib.ChainPrefix
import Ns3Dsme.Lib.Slots

open Program SharedChain

namespace Ns3Dsme.Network

/-- What a `TagData` holds: the type of the tag, and `size` octets that begin with its
serialization. -/
structure PacketTag where
  tid : BitVec 16
  data : List Octet
  deriving DecidableEq

abbrev TagData := Cell PacketTag

abbrev TagHeap := Heap PacketTag

namespace TagHeap

def get (h : TagHeap) (p : ℕ) : Except Fault TagData :=
  match h.cells p with
  | some c => .ok c
  | none => .error .outOfRange

/-- `count++`. -/
def increment (h : TagHeap) (p : ℕ) : Except Fault TagHeap := do
  let c ← get h p
  return h.set p (some { c with count := c.count + 1 })

/-- `count--`. -/
def decrement (h : TagHeap) (p : ℕ) : Except Fault TagHeap := do
  let c ← get h p
  return h.set p (some { c with count := c.count - 1 })

/-- `count++`, where there is a tag. -/
def share (h : TagHeap) : Option ℕ → Except Fault TagHeap
  | none => .ok h
  | some p => increment h p

/-- `free`, where there is a tag. -/
def free (h : TagHeap) : Option ℕ → Except Fault TagHeap
  | none => .ok h
  | some p => do
    let _ ← get h p
    return h.set p none

/-- `CreateTagData`, and what is put into the new tag. -/
def createTagData (h : TagHeap) (next : Option ℕ) (tag : PacketTag) : Except Fault (ℕ × TagHeap) :=
  if tag.data.length < 2 ^ 32 - 1 then
    .ok (h.top, ({ h with top := h.top + 1 } : TagHeap).set h.top (some ⟨next, 1, tag⟩))
  else .error .assertFailed

/-- No tag has so many pointers that one more would not be counted in 32 bits. -/
def Countable (h : TagHeap) : Prop := ∀ p < h.top, ∀ c ∈ h.cells p, c.count < 2 ^ 32 - 1

/-- The loop from `cur` on that looks for a tag, in `Peek` and in `COWTraverse`. -/
def find (h : TagHeap) (tid : BitVec 16) : ℕ → Option ℕ → Except Fault (Option PacketTag)
  | _, none => .ok none
  | 0, some _ => .error .outOfRange
  | fuel + 1, some cur => do
    let c ← get h cur
    if c.value.tid = tid then return some c.value
    else find h tid fuel c.next

end TagHeap

/-- `prevNext`: the pointer of the list itself, or that of a tag. -/
inductive TagLink
  | head
  | next (p : ℕ)
  deriving DecidableEq

/-- Where the first loop of `COWTraverse` stops. -/
inductive TagSearch
  | atEnd
  | merge (prevNext : TagLink) (cur : ℕ)
  | found (prevNext : TagLink) (cur : ℕ)
  deriving DecidableEq

/-- The first loop of `COWTraverse`. -/
def TagHeap.search (h : TagHeap) (tid : BitVec 16) :
    ℕ → TagLink → Option ℕ → Except Fault TagSearch
  | _, _, none => .ok .atEnd
  | 0, _, some _ => .error .outOfRange
  | fuel + 1, prevNext, some cur => do
    let c ← get h cur
    if 1 < c.count then return .merge prevNext cur
    else if c.value.tid = tid then return .found prevNext cur
    else search h tid fuel (.next cur) c.next

/-- A list, by its own pointer, and the heap. -/
structure PacketTagList where
  next : Option ℕ
  heap : TagHeap

namespace PacketTagList

/-- `*prevNext = target`. -/
def setLink (l : PacketTagList) (prevNext : TagLink) (target : Option ℕ) :
    Except Fault PacketTagList :=
  match prevNext with
  | .head => .ok { l with next := target }
  | .next p => do
    let c ← l.heap.get p
    return { l with heap := l.heap.set p (some { c with next := target }) }

/-- The second loop of `COWTraverse`: what the others use as well is copied. -/
def copyDown (tid : BitVec 16) : ℕ → PacketTagList → TagLink → ℕ →
    Except Fault (PacketTagList × TagLink × ℕ)
  | 0, _, _, _ => .error .outOfRange
  | fuel + 1, l, prevNext, cur => do
    let c ← l.heap.get cur
    if c.value.tid = tid then return (l, prevNext, cur)
    else if c.count ≤ 1 then .error .assertFailed
    else
      let heap ← l.heap.decrement cur
      let (copy, heap) ← heap.createTagData c.next c.value
      match c.next with
      | none => .error .outOfRange
      | some next =>
        let heap ← heap.increment next
        let l ← setLink ⟨l.next, heap⟩ prevNext (some copy)
        copyDown tid fuel l (.next copy) next

/-- A `COWWriter`; it returns the tag as it is afterwards. -/
abbrev COWWriter := Bool → PacketTagList → TagLink → ℕ → Except Fault (PacketTagList × PacketTag)

/-- `COWTraverse`; a tag is returned if it was found. -/
def cowTraverse (l : PacketTagList) (tid : BitVec 16) (writer : COWWriter) :
    Except Fault (PacketTagList × Option PacketTag) := do
  match ← l.heap.search tid l.heap.top .head l.next with
  | .atEnd => return (l, none)
  | .found prevNext cur =>
    let (l, tag) ← writer true l prevNext cur
    return (l, some tag)
  | .merge prevNext cur =>
    match ← l.heap.find tid l.heap.top (some cur) with
    | none => return (l, none)
    | some _ =>
      let (l, prevNext, cur) ← copyDown tid l.heap.top l prevNext cur
      let c ← l.heap.get cur
      if c.count ≤ 1 then .error .assertFailed
      else
        let (l, tag) ← writer false l prevNext cur
        return (l, some tag)

def removeWriter : COWWriter := fun preMerge l prevNext cur => do
  let c ← l.heap.get cur
  let l ← l.setLink prevNext c.next
  if preMerge then
    let heap ← l.heap.free (some cur)
    return ({ l with heap := heap }, c.value)
  else
    let heap ← l.heap.decrement cur
    let heap ← heap.share c.next
    return ({ l with heap := heap }, c.value)

/-- `ReplaceWriter`.  Before the first merge the tag is written over the octets of the old one, of
which there are no more: `TagBuffer` asserts that it does not go past them. -/
def replaceWriter (tag : PacketTag) : COWWriter := fun preMerge l prevNext cur => do
  let c ← l.heap.get cur
  if preMerge then
    if c.value.data.length < tag.data.length then .error .assertFailed
    else
      let data := tag.data ++ c.value.data.drop tag.data.length
      return ({ l with heap := l.heap.set cur (some { c with value := { c.value with data } }) }, tag)
  else
    let heap ← l.heap.decrement cur
    let (copy, heap) ← heap.createTagData c.next tag
    let heap ← heap.share c.next
    let l ← setLink ⟨l.next, heap⟩ prevNext (some copy)
    return (l, tag)

def remove (l : PacketTagList) (tid : BitVec 16) :
    Except Fault (PacketTagList × Option PacketTag) :=
  l.cowTraverse tid removeWriter

def peek (l : PacketTagList) (tid : BitVec 16) : Except Fault (Option PacketTag) :=
  l.heap.find tid l.heap.top l.next

/-- `Add`; the loop asserts that there is no tag of the type. -/
def add (l : PacketTagList) (tag : PacketTag) : Except Fault PacketTagList := do
  match ← l.heap.find tag.tid l.heap.top l.next with
  | some _ => .error .assertFailed
  | none =>
    let (head, heap) ← l.heap.createTagData l.next tag
    return ⟨some head, heap⟩

def replace (l : PacketTagList) (tag : PacketTag) : Except Fault (PacketTagList × Bool) := do
  let (l, found) ← l.cowTraverse tag.tid (replaceWriter tag)
  match found with
  | some _ => return (l, true)
  | none =>
    let l ← l.add tag
    return (l, false)

/-- The loop of `RemoveAll`; a tag is freed when the loop has gone past it. -/
def removeAllFrom : ℕ → TagHeap → Option ℕ → Option ℕ → Except Fault TagHeap
  | _, h, prev, none => h.free prev
  | 0, _, _, some _ => .error .outOfRange
  | fuel + 1, h, prev, some cur => do
    let h ← h.decrement cur
    let c ← h.get cur
    if 0 < c.count then h.free prev
    else
      let h ← h.free prev
      removeAllFrom fuel h (some cur) c.next

/-- `RemoveAll`, and the destructor. -/
def removeAll (l : PacketTagList) : Except Fault PacketTagList := do
  let heap ← removeAllFrom l.heap.top l.heap none l.next
  return ⟨none, heap⟩

/-- The copy constructor, for a list that points to `o`. -/
def copy (h : TagHeap) (o : Option ℕ) : Except Fault PacketTagList := do
  let heap ← h.share o
  return ⟨o, heap⟩

/-- `operator =`, for another list that points to `o`. -/
def assign (l : PacketTagList) (o : Option ℕ) : Except Fault PacketTagList :=
  if l.next = o then .ok l
  else do
    let l ← l.removeAll
    copy l.heap o

end PacketTagList

/-! ## All lists -/

/-- The pointer of a list, and the map that the list stands for: the serialization of each tag. -/
structure TagMap where
  next : Option ℕ
  ref : BitVec 16 → Option (List Octet)

/-- The heap and the lists; a list that was destroyed leaves its place empty. -/
structure TagLists where
  heap : TagHeap
  slots : List (Option TagMap)

/-- The operations on lists. -/
inductive TagCall
  | construct
  | copy (o : ℕ)
  | assign (b o : ℕ)
  | destroy (b : ℕ)
  | add (b : ℕ) (tag : PacketTag)
  | remove (b : ℕ) (tid : BitVec 16)
  | replace (b : ℕ) (tag : PacketTag)
  | removeAll (b : ℕ)

namespace TagLists

/-- Before the first list. -/
def start : TagLists := ⟨⟨fun _ => none, 0⟩, []⟩

def slot (w : TagLists) (b : ℕ) : Option TagMap := Slots.slot w.slots b

def setSlot (w : TagLists) (b : ℕ) (l : PacketTagList) (ref : BitVec 16 → Option (List Octet)) :
    TagLists :=
  ⟨l.heap, w.slots.set b (some ⟨l.next, ref⟩)⟩

def addSlot (w : TagLists) (l : PacketTagList) (ref : BitVec 16 → Option (List Octet)) : TagLists :=
  ⟨l.heap, w.slots ++ [some ⟨l.next, ref⟩]⟩

/-- An operation on one list that is there. -/
def withSlot (w : TagLists) (b : ℕ) (f : PacketTagList → (BitVec 16 → Option (List Octet)) →
    Except Fault TagLists) : Except Fault TagLists :=
  match w.slot b with
  | some l => f ⟨l.next, w.heap⟩ l.ref
  | none => .error .nullPacket

/-- One operation, and what it does to the map. -/
def step (w : TagLists) : TagCall → Except Fault TagLists
  | .construct => .ok (w.addSlot ⟨none, w.heap⟩ fun _ => none)
  | .copy o => w.withSlot o fun l ref =>
    (PacketTagList.copy w.heap l.next).map fun l => w.addSlot l ref
  | .assign b o => w.withSlot b fun l _ => w.withSlot o fun o ref =>
    (l.assign o.next).map fun l => w.setSlot b l ref
  | .destroy b => w.withSlot b fun l _ =>
    l.removeAll.map fun l => ⟨l.heap, w.slots.set b none⟩
  | .add b tag => w.withSlot b fun l ref =>
    (l.add tag).map fun l => w.setSlot b l (Function.update ref tag.tid (some tag.data))
  | .remove b tid => w.withSlot b fun l ref =>
    (l.remove tid).map fun r => w.setSlot b r.1 (Function.update ref tid none)
  | .replace b tag => w.withSlot b fun l ref =>
    (l.replace tag).map fun r => w.setSlot b r.1 (Function.update ref tag.tid (some tag.data))
  | .removeAll b => w.withSlot b fun l _ => l.removeAll.map fun l => w.setSlot b l fun _ => none

/-- A tag that `GetSerializedSize` can describe. -/
def Small (tag : PacketTag) : Prop := tag.data.length < 2 ^ 32 - 1

/-- What the program may do: the lists are there, and no type is added twice. -/
def Enabled (w : TagLists) : TagCall → Prop
  | .construct => True
  | .copy o => ∃ l, w.slot o = some l
  | .assign b o => (∃ l, w.slot b = some l) ∧ ∃ l, w.slot o = some l
  | .destroy b => ∃ l, w.slot b = some l
  | .add b tag => Small tag ∧ ∃ l, w.slot b = some l ∧ l.ref tag.tid = none
  | .remove b _ => ∃ l, w.slot b = some l
  | .replace b tag => Small tag ∧ ∃ l, w.slot b = some l
  | .removeAll b => ∃ l, w.slot b = some l

def machine : Machine TagLists TagCall Fault where
  enabled := Enabled
  step := step

/-- The octets that `Replace` would write over. -/
def sizeInPlace (h : TagHeap) (next : Option ℕ) (tid : BitVec 16) : Option ℕ :=
  match h.search tid h.top .head next with
  | .ok (.found _ cur) => (h.cells cur).map fun c => c.value.data.length
  | _ => none

/-- `Replace` of a tag before the first merge is not longer than what it writes over. -/
def FitsInPlace (w : TagLists) : TagCall → Prop
  | .replace b tag => ∀ l, w.slot b = some l → ∀ n, sizeInPlace w.heap l.next tag.tid = some n →
    tag.data.length ≤ n
  | _ => True

/-- The condition of a call.  A tag that gets another pointer can count it in 32 bits. -/
def Fits (w : TagLists) (c : TagCall) : Prop :=
  w.heap.Countable ∧ w.FitsInPlace c

/-- What `Deserialize` is given: the octets that were written come first, and it reads no others. -/
def Reads (written : Option (List Octet)) (tag : Option PacketTag) : Prop :=
  Option.Rel (fun d t => d <+: t.data) written tag

/-- The pointers of all lists. -/
def pointers (w : TagLists) : List (Option ℕ) := Slots.values TagMap.next w.slots

/-- What is promised of a state that a run reaches: each list is its map, by `Peek` and by what
`Remove` and `Replace` find, each tag counts the pointers to it, all pointers lead to tags that are allocated, each allocated tag is
reached from a list, and the next call goes through. -/
structure Isolated (w : TagLists) : Prop where
  peek : ∀ b l, w.slot b = some l → ∀ tid, ∃ tag,
    PacketTagList.peek ⟨l.next, w.heap⟩ tid = .ok tag ∧ Reads (l.ref tid) tag
  found : ∀ b l, w.slot b = some l → ∀ tid, ∃ l' tag,
    PacketTagList.remove ⟨l.next, w.heap⟩ tid = .ok (l', tag) ∧ Reads (l.ref tid) tag
  replaced : ∀ b l, w.slot b = some l → ∀ tag, Small tag → w.FitsInPlace (.replace b tag) →
    ∃ l', PacketTagList.replace ⟨l.next, w.heap⟩ tag = .ok (l', (l.ref tag.tid).isSome)
  count : ∀ p c, w.heap.cells p = some c →
    c.count = RefCount.refs id w.pointers p + links w.heap p
  allocated : ∀ o, (o ∈ w.pointers ∨ ∃ p c, w.heap.cells p = some c ∧ c.next = o) → ∀ p,
    o = some p → ∃ c, w.heap.cells p = some c
  owned : ∀ p c, w.heap.cells p = some c → ∃ o ∈ w.pointers, Reaches w.heap o p
  progress : ∀ c, w.Enabled c → w.Fits c → ∃ w', w.step c = .ok w'

end TagLists

end Ns3Dsme.Network
