import Tendermint.Types.Basic
import Tendermint.Lib.Except

/-!
# The concurrent list (`libs/clist/clist.go`)

`CList` is a doubly linked list that readers traverse while writers push at the back and remove
anywhere.  Every write holds the list's mutex, so the writes of all goroutines happen one after
the other; the model is the state they act on and the operations as the code performs them.
An element is a pointer, here its index in `elems`, the elements in the order they were
pushed.  Each element has a `sync.WaitGroup` per direction, created armed (`waitGroup1`) and
released (`Done`) when its link goes from `nil` to an element or when the element is removed;
the wait channel beside each group is created and closed with it, so the group's counter tells
both.  `Done` on a counter of zero is Go's panic on a negative counter.

`Remove` trusts its argument: it checks a `nil` previous or next link against the head or the
tail, and nothing else.  An element removed from the middle of the list keeps both links until
it is detached, so removing it again passes every check:

* **`Remove_twice`** — from every list in which an element is linked both ways to two others
  that link back to it, and whose length is at least three, `Remove` of that element succeeds,
  and a second `Remove` of it succeeds too and changes nothing but the length, which drops once
  more.

After the second call the length is one less than the number of elements reachable from the
head (`Remove_twice_threeElems`).
-/

namespace Tendermint

namespace clist

/-- `Done` on a `sync.WaitGroup` with counter `wg`. -/
def Done (wg : Int) : Go Int :=
  if wg ≤ 0 then throw (.panic "sync: negative WaitGroup counter") else pure (wg - 1)

/-- `CElement`: the links are pointers into the list's elements, `none` being `nil`. -/
structure CElement (α : Type) where
  prev : Option Nat
  prevWg : Int
  next : Option Nat
  nextWg : Int
  removed : Bool
  Value : α
  deriving DecidableEq, Repr

namespace CElement

variable {α : Type}

/-- `SetNext`: a link going to `nil` re-arms the group, a link coming from `nil` releases it. -/
def SetNext (e : CElement α) (newNext : Option Nat) : Go (CElement α) := do
  let oldNext := e.next
  let e := { e with next := newNext }
  let e := if oldNext.isSome && newNext.isNone then { e with nextWg := 1 } else e
  if oldNext.isNone && newNext.isSome then
    let nextWg ← Done e.nextWg
    pure { e with nextWg := nextWg }
  else pure e

/-- `SetPrev`. -/
def SetPrev (e : CElement α) (newPrev : Option Nat) : Go (CElement α) := do
  let oldPrev := e.prev
  let e := { e with prev := newPrev }
  let e := if oldPrev.isSome && newPrev.isNone then { e with prevWg := 1 } else e
  if oldPrev.isNone && newPrev.isSome then
    let prevWg ← Done e.prevWg
    pure { e with prevWg := prevWg }
  else pure e

/-- `SetRemoved`: the waiters on a `nil` link are woken up. -/
def SetRemoved (e : CElement α) : Go (CElement α) := do
  let e := { e with removed := true }
  let e ← if e.prev.isNone then do
      let prevWg ← Done e.prevWg
      pure { e with prevWg := prevWg }
    else pure e
  if e.next.isNone then
    let nextWg ← Done e.nextWg
    pure { e with nextWg := nextWg }
  else pure e

/-- `DetachNext`. -/
def DetachNext (e : CElement α) : Go (CElement α) :=
  if !e.removed then throw (.panic "DetachNext() must be called after Remove(e)")
  else pure { e with next := none }

/-- `DetachPrev`. -/
def DetachPrev (e : CElement α) : Go (CElement α) :=
  if !e.removed then throw (.panic "DetachPrev() must be called after Remove(e)")
  else pure { e with prev := none }

/-- Moving a link from one element to another touches no group. -/
lemma SetNext_move {e : CElement α} {n n' : Nat} (h : e.next = some n) :
    e.SetNext (some n') = .ok { e with next := some n' } := by
  simp [SetNext, h]
  rfl

lemma SetPrev_move {e : CElement α} {p p' : Nat} (h : e.prev = some p) :
    e.SetPrev (some p') = .ok { e with prev := some p' } := by
  simp [SetPrev, h]
  rfl

/-- Removing an element linked both ways wakes nobody up. -/
lemma SetRemoved_linked {e : CElement α} {p n : Nat} (hp : e.prev = some p)
    (hn : e.next = some n) : e.SetRemoved = .ok { e with removed := true } := by
  simp [SetRemoved, hp, hn]
  rfl

end CElement

/-- `CList`: the elements ever pushed, the group `FrontWait` waits on, head, tail, `len` (a Go
`int`) and `maxLen`. -/
structure CList (α : Type) where
  elems : List (CElement α)
  wg : Int
  head : Option Nat
  tail : Option Nat
  len : Int
  maxLen : Int
  deriving DecidableEq, Repr

/-- `MaxLength`: the largest `int`. -/
def MaxLength : Int := 2 ^ 63 - 1

variable {α : Type}

/-- `newWithMax`, after `Init`. -/
def newWithMax (maxLength : Int) : CList α :=
  { elems := [], wg := 1, head := none, tail := none, len := 0, maxLen := maxLength }

/-- `New`. -/
def New : CList α := newWithMax MaxLength

namespace CList

/-- The element behind a pointer; a pointer the list never handed out is Go's `nil`. -/
def elem (l : CList α) (e : Nat) : Go (CElement α) :=
  match l.elems[e]? with
  | some x => pure x
  | none => throw (.panic nilDereference)

/-- A write through the pointer `e`. -/
def setElem (l : CList α) (e : Nat) (x : CElement α) : CList α :=
  { l with elems := l.elems.set e x }

/-- `Len`. -/
def Len (l : CList α) : Int := l.len

/-- `Front`. -/
def Front (l : CList α) : Option Nat := l.head

/-- `PushBack`: the new element's pointer, and the list. -/
def PushBack (l : CList α) (v : α) : Go (Nat × CList α) := do
  let e : CElement α := ⟨none, 1, none, 1, false, v⟩
  let id := l.elems.length
  -- release the waiters on `FrontWait` and `BackWait`
  let wg ← if l.len = 0 then Done l.wg else pure l.wg
  if l.len ≥ l.maxLen then
    throw (.panic ("clist: maximum length list reached " ++ toString l.maxLen))
  else
    let l := { l with elems := l.elems ++ [e], wg := wg, len := l.len + 1 }
    match l.tail with
    | none => pure (id, { l with head := some id, tail := some id })
    | some t => do
      let e ← e.SetPrev (some t)
      let l := l.setElem id e
      let tailElem ← l.elem t
      let tailElem ← tailElem.SetNext (some id)
      pure (id, { l.setElem t tailElem with tail := some id })

/-- `Remove`: the element's value, and the list. -/
def Remove (l : CList α) (e : Nat) : Go (α × CList α) := do
  let x ← l.elem e
  let prev := x.prev
  let next := x.next
  if l.head.isNone || l.tail.isNone then throw (.panic "Remove(e) on empty CList")
  else if prev.isNone && decide (l.head ≠ some e) then throw (.panic "Remove(e) with false head")
  else if next.isNone && decide (l.tail ≠ some e) then throw (.panic "Remove(e) with false tail")
  else
    -- removing the only element makes `FrontWait` wait again
    let l := { l with wg := if l.len = 1 then 1 else l.wg, len := l.len - 1 }
    let l ← match prev with
      | none => pure { l with head := next }
      | some p => do
        let y ← l.elem p
        let y ← y.SetNext next
        pure (l.setElem p y)
    let l ← match next with
      | none => pure { l with tail := prev }
      | some n => do
        let y ← l.elem n
        let y ← y.SetPrev prev
        pure (l.setElem n y)
    let x ← l.elem e
    let x ← x.SetRemoved
    pure (x.Value, l.setElem e x)

/-- The elements reachable from the head by `Next`, on `fuel` steps. -/
def walk (l : CList α) : Nat → Option Nat → List Nat
  | 0, _ => []
  | _ + 1, none => []
  | fuel + 1, some e => e :: walk l fuel ((l.elems[e]?).bind (·.next))

/-- The elements a traversal from `Front` visits. -/
def nodes (l : CList α) : List Nat := l.walk l.elems.length l.head

/-! ## Removing an element twice -/

lemma elem_of_getElem? {l : CList α} {e : Nat} {x : CElement α} (h : l.elems[e]? = some x) :
    l.elem e = .ok x := by
  rw [elem, h]
  rfl

lemma getElem?_setElem (l : CList α) (e i : Nat) (x : CElement α) :
    (l.setElem e x).elems[i]? = if e = i then (l.elems[e]?).map fun _ => x else l.elems[i]? := by
  simp only [setElem, List.getElem?_set]
  split_ifs <;> simp_all

/-- Writing back what an element holds changes nothing. -/
lemma setElem_self {l : CList α} {e : Nat} {x : CElement α} (h : l.elems[e]? = some x) :
    l.setElem e x = l := by
  obtain ⟨he, rfl⟩ := List.getElem?_eq_some_iff.mp h
  simp [setElem]

/-- `Remove` of an element linked both ways to two others, each linked onward on that side: the
two are linked to each other, the element is marked removed and keeps its links, and the length
drops. -/
lemma Remove_linked {l : CList α} {p e n : Nat} {xp xe xn : CElement α}
    (hpe : p ≠ e) (hne : n ≠ e) (hpn : p ≠ n)
    (hp : l.elems[p]? = some xp) (he : l.elems[e]? = some xe) (hn : l.elems[n]? = some xn)
    (hxe : xe.prev = some p ∧ xe.next = some n) (hxp : xp.next.isSome)
    (hxn : xn.prev.isSome) (hhead : l.head.isSome) (htail : l.tail.isSome) (hlen : l.len ≠ 1) :
    l.Remove e = .ok (xe.Value,
      ((({ l with len := l.len - 1 }.setElem p { xp with next := some n }).setElem n
        { xn with prev := some p }).setElem e { xe with removed := true })) := by
  obtain ⟨hxep, hxen⟩ := hxe
  obtain ⟨e', hxp⟩ := Option.isSome_iff_exists.mp hxp
  obtain ⟨e'', hxn⟩ := Option.isSome_iff_exists.mp hxn
  -- none of the three checks fires: the list has a head and a tail, and both links are set
  have hnil : (l.head.isNone || l.tail.isNone) = false := by
    simp only [Bool.or_eq_false_iff, Option.isNone_eq_false_iff]
    exact ⟨hhead, htail⟩
  simp only [Remove, elem_of_getElem? he, ExceptRun.ok_bind, hxep, hxen, hnil, Option.isNone_some,
    Bool.false_and, Bool.false_eq_true, if_false, if_neg hlen]
  -- each link moves from one element to another, so no wait group is touched
  simp only [elem, setElem, hp, pure_bind, CElement.SetNext_move hxp, ExceptRun.ok_bind,
    List.getElem?_set_ne hpn, hn, CElement.SetPrev_move hxn, List.getElem?_set_ne hne,
    List.getElem?_set_ne hpe, he, CElement.SetRemoved_linked hxep hxen, hxep, hxen]
  rfl

/-- Removing an element linked both ways, inside a list of three or more, twice: both calls
succeed, and the second changes nothing but the length. -/
theorem Remove_twice (l : CList α) (p e n : Nat) (xp xe xn : CElement α)
    (hpe : p ≠ e) (hne : n ≠ e) (hpn : p ≠ n)
    (hp : l.elems[p]? = some xp) (he : l.elems[e]? = some xe) (hn : l.elems[n]? = some xn)
    (hxe : xe.prev = some p ∧ xe.next = some n) (hxp : xp.next = some e)
    (hxn : xn.prev = some e) (hhead : l.head.isSome) (htail : l.tail.isSome) (hlen : 3 ≤ l.len) :
    ∃ v l₁, l.Remove e = .ok (v, l₁) ∧ l₁.Remove e = .ok (v, { l₁ with len := l₁.len - 1 }) := by
  have h₁ := Remove_linked hpe hne hpn hp he hn hxe (by simp [hxp]) (by simp [hxn]) hhead htail
    (by omega)
  refine ⟨_, _, h₁, ?_⟩
  -- after the first call the neighbours point to each other and the element still to both
  generalize hl₁ : ((({ l with len := l.len - 1 } : CList α).setElem p
    { xp with next := some n }).setElem n { xn with prev := some p }).setElem e
      { xe with removed := true } = l₁
  have hp₁ : l₁.elems[p]? = some { xp with next := some n } := by
    simp [← hl₁, getElem?_setElem, hpe.symm, hpn.symm, hp]
  have he₁ : l₁.elems[e]? = some { xe with removed := true } := by
    simp [← hl₁, getElem?_setElem, hpe, hne, he]
  have hn₁ : l₁.elems[n]? = some { xn with prev := some p } := by
    simp [← hl₁, getElem?_setElem, hne.symm, hpn, hn]
  have hlen₁ : l₁.len ≠ 1 := by
    rw [← hl₁]
    simp only [setElem]
    omega
  have hhead₁ : l₁.head.isSome := by rw [← hl₁]; exact hhead
  have htail₁ : l₁.tail.isSome := by rw [← hl₁]; exact htail
  -- the second call writes back into each of the three what it already holds
  rw [Remove_linked hpe hne hpn hp₁ he₁ hn₁ hxe rfl rfl hhead₁ htail₁ hlen₁]
  have hp₂ : ({ l₁ with len := l₁.len - 1 } : CList α).elems[p]? = some { xp with next := some n } :=
    hp₁
  have hn₂ : ({ l₁ with len := l₁.len - 1 } : CList α).elems[n]? = some { xn with prev := some p } :=
    hn₁
  have he₂ : ({ l₁ with len := l₁.len - 1 } : CList α).elems[e]? = some { xe with removed := true } :=
    he₁
  rw [setElem_self hp₂, setElem_self hn₂, setElem_self he₂]

/-- The list that pushing `0`, `1` and `2` onto a new list builds. -/
def threeElems : CList Nat :=
  ⟨[⟨none, 1, some 1, 0, false, 0⟩, ⟨some 0, 0, some 2, 0, false, 1⟩, ⟨some 1, 0, none, 1, false, 2⟩],
    0, some 0, some 2, 3, MaxLength⟩

/-- Pushing three values and removing the middle one twice: the length ends at one, while a
traversal from the front still visits two elements. -/
theorem Remove_twice_threeElems :
    ((New : CList Nat).PushBack 0 >>= fun r => r.2.PushBack 1 >>= fun r => r.2.PushBack 2) =
        .ok (2, threeElems) ∧
      (∃ v l₁, threeElems.Remove 1 = .ok (v, l₁) ∧
        l₁.Remove 1 = .ok (v, { l₁ with len := l₁.len - 1 })) ∧
      ∃ l₂, (threeElems.Remove 1 >>= fun r => r.2.Remove 1) = .ok (1, l₂) ∧
        l₂.len = 1 ∧ l₂.nodes = [0, 2] :=
  ⟨by decide,
    Remove_twice threeElems 0 1 2 _ _ _ (by decide) (by decide) (by decide) rfl rfl rfl
      ⟨rfl, rfl⟩ rfl rfl rfl rfl (by decide),
    ⟨_, rfl, rfl, rfl⟩⟩

end CList

end clist

end Tendermint
