import Mathlib.Logic.Function.Basic
import Wasivst.Bitsery

/-!
# Proxies for the objects that are passed around

The proxy classes of `serialization/vst3` apart from the one of the plugin itself: component
handlers, connection points, context menus, host contexts, plug frames and plug views. All of them
read which interfaces an object has, send that, and answer `queryInterface()` by it.
-/

set_option autoImplicit false

namespace Vst3.Proxies
open InPlace

inductive Interface
  | componentHandler
  | componentHandler2
  | componentHandler3
  | componentHandlerBusActivation
  | progress
  | unitHandler
  | unitHandler2
  | connectionPoint
  | contextMenu
  | hostApplication
  | plugInterfaceSupport
  | plugFrame
  | plugView
  | parameterFinder
  | plugViewContentScaleSupport
  deriving DecidableEq

/-- Any id that no `queryInterface()` here compares with is `other`. -/
inductive Iid
  | fUnknown
  | of (i : Interface)
  | other (id : Nat)
  deriving DecidableEq

structure IContextMenuItem where
  name : Vector UInt16 128
  tag : UInt32
  flags : UInt32

namespace IContextMenuItem

def empty : IContextMenuItem := ⟨Vector.replicate 128 0, 0, 0⟩

def serialize (B : Bitsery) : Codec IContextMenuItem :=
  .record
    [.field (·.name) (fun a v => { a with name := v }) (B.array2b 128),
     .field (·.tag) (fun a v => { a with tag := v }) B.value4b,
     .field (·.flags) (fun a v => { a with flags := v }) B.value4b]

theorem serialize_overwrites (B : Bitsery) : (serialize B).Overwrites := by
  intro old item
  cases item
  rfl

@[simp] theorem serialize_fits (B : Bitsery) (item : IContextMenuItem) :
    (serialize B).fits item = true := by
  simp [serialize]

end IContextMenuItem

/-- An object behind an `FUnknown` pointer: what `FUnknownPtr<I>(object)` says, and the functions
of a context menu. `getItem` is given the item that it may write to. -/
structure Object where
  supports : Interface → Bool
  getItemCount : Int
  getItem : Nat → IContextMenuItem → IContextMenuItem

/-- The items that a context menu came with; `resize` throws for a negative count. -/
def Object.items (object : Object) : Option (List IContextMenuItem) :=
  if object.supports .contextMenu then
    if object.getItemCount < 0 then none
    else some ((List.range object.getItemCount.toNat).map fun i => object.getItem i .empty)
  else some []

/-- `ConstructArgs`: who owns the proxy, the flags of its base classes, and what else is read. -/
structure ConstructArgs (α β : Type) where
  owner : α
  supported : Interface → Bool
  rest : β

/-- The lists that the source of a proxy class spells out. -/
structure Lists where
  /-- The first base class, which is also the `FUnknown`. -/
  main : Interface
  bases : List Interface
  /-- The initializers of `ConstructArgs`. -/
  read : List Interface
  /-- The objects in `serialize()`. -/
  sent : List Interface
  /-- The comparisons of `queryInterface()`, each under the flag of the class it casts to. -/
  queried : List (Iid × Interface)

structure ProxyClass (α β : Type) extends Lists where
  owner : Bitsery → Codec α
  readRest : Object → Option β
  rest : Bitsery → Codec β

namespace ProxyClass
variable {α β : Type} (c : ProxyClass α β) (B : Bitsery)

/-- Flags that are not initialized stay what `uninitialized` says; an exception is the end. -/
def ofObject (object : Object) (owner : α) (uninitialized : Interface → Bool) :
    Option (ConstructArgs α β) :=
  (c.readRest object).map fun rest =>
    ⟨owner, fun i => if i ∈ c.read then object.supports i else uninitialized i, rest⟩

def flag (i : Interface) : Codec (ConstructArgs α β) :=
  .field (fun a => a.supported i)
    (fun a v => { a with supported := Function.update a.supported i v }) B.bool1b

def serialize : Codec (ConstructArgs α β) :=
  .record
    (.field (·.owner) (fun a v => { a with owner := v }) (c.owner B) ::
      c.sent.map (flag B) ++ [.field (·.rest) (fun a v => { a with rest := v }) (c.rest B)])

/-- As which base `*obj` is set; `none` is `kNoInterface`. -/
def queryInterface (proxy : ConstructArgs α β) (_iid : Iid) : Option Interface :=
  (c.queried.find? fun q => proxy.supported q.2 && q.1 = _iid).map Prod.snd

/-- Reading an object, sending it, and the proxy made from what arrives in `into`. -/
def proxy (object : Object) (owner : α) (uninitialized : Interface → Bool)
    (into : ConstructArgs α β) : Option (ConstructArgs α β) :=
  (c.ofObject object owner uninitialized).bind ((c.serialize B).transfer into)

end ProxyClass

/-! ## The classes -/

/-- The owner is an instance, and nothing else is read. -/
def Lists.ofInstance (lists : Lists) : ProxyClass UInt64 Unit :=
  { lists with
    owner := fun B => B.value8b
    readRest := fun _ => some ()
    rest := fun _ => .const () }

def Vst3ComponentHandlerProxy : ProxyClass UInt64 Unit := Lists.ofInstance
  { main := .componentHandler
    bases := [.componentHandler, .componentHandler2, .componentHandler3,
      .componentHandlerBusActivation, .progress, .unitHandler, .unitHandler2]
    read := [.componentHandler, .componentHandler2, .componentHandler3,
      .componentHandlerBusActivation, .progress, .unitHandler, .unitHandler2]
    sent := [.componentHandler, .componentHandler2, .componentHandler3,
      .componentHandlerBusActivation, .progress, .unitHandler, .unitHandler2]
    queried := [(.fUnknown, .componentHandler), (.of .componentHandler, .componentHandler),
      (.of .componentHandler2, .componentHandler2), (.of .componentHandler3, .componentHandler3),
      (.of .componentHandlerBusActivation, .componentHandlerBusActivation),
      (.of .progress, .progress), (.of .unitHandler, .unitHandler),
      (.of .unitHandler2, .unitHandler2)] }

def Vst3ConnectionPointProxy : ProxyClass UInt64 Unit := Lists.ofInstance
  { main := .connectionPoint
    bases := [.connectionPoint]
    read := [.connectionPoint]
    sent := [.connectionPoint]
    queried := [(.fUnknown, .connectionPoint), (.of .connectionPoint, .connectionPoint)] }

def Vst3PlugFrameProxy : ProxyClass UInt64 Unit := Lists.ofInstance
  { main := .plugFrame
    bases := [.plugFrame]
    read := [.plugFrame]
    sent := [.plugFrame]
    queried := [(.fUnknown, .plugFrame), (.of .plugFrame, .plugFrame)] }

def Vst3PlugViewProxy : ProxyClass UInt64 Unit := Lists.ofInstance
  { main := .plugView
    bases := [.plugView, .parameterFinder, .plugViewContentScaleSupport]
    read := [.plugView, .parameterFinder, .plugViewContentScaleSupport]
    sent := [.plugView, .parameterFinder, .plugViewContentScaleSupport]
    queried := [(.fUnknown, .plugView), (.of .plugView, .plugView),
      (.of .parameterFinder, .parameterFinder),
      (.of .plugViewContentScaleSupport, .plugViewContentScaleSupport)] }

/-- There is no owner when the context is given to the factory. -/
def Vst3HostContextProxy : ProxyClass (Option UInt64) Unit where
  main := .hostApplication
  bases := [.hostApplication, .plugInterfaceSupport]
  read := [.hostApplication, .plugInterfaceSupport]
  sent := [.hostApplication, .plugInterfaceSupport]
  queried := [(.fUnknown, .hostApplication), (.of .hostApplication, .hostApplication),
    (.of .plugInterfaceSupport, .plugInterfaceSupport)]
  owner B := B.inPlaceOptional 0 true B.value8b
  readRest _ := some ()
  rest _ := .const ()

structure ContextMenuOwner where
  owner_instance_id : UInt64
  context_menu_id : UInt64

def Vst3ContextMenuProxy : ProxyClass ContextMenuOwner (List IContextMenuItem) where
  main := .contextMenu
  bases := [.contextMenu]
  read := [.contextMenu]
  sent := [.contextMenu]
  queried := [(.fUnknown, .contextMenu), (.of .contextMenu, .contextMenu)]
  owner B := .record
    [.field (·.owner_instance_id) (fun a v => { a with owner_instance_id := v }) B.value8b,
     .field (·.context_menu_id) (fun a v => { a with context_menu_id := v }) B.value8b]
  readRest object := object.items
  rest B := B.container (2 ^ 16) .empty (IContextMenuItem.serialize B)

inductive Kind
  | componentHandler
  | connectionPoint
  | plugFrame
  | plugView
  | hostContext
  | contextMenu

namespace Kind

abbrev Owner : Kind → Type
  | .componentHandler | .connectionPoint | .plugFrame | .plugView => UInt64
  | .hostContext => Option UInt64
  | .contextMenu => ContextMenuOwner

abbrev Rest : Kind → Type
  | .componentHandler | .connectionPoint | .plugFrame | .plugView | .hostContext => Unit
  | .contextMenu => List IContextMenuItem

def proxyClass : (k : Kind) → ProxyClass k.Owner k.Rest
  | .componentHandler => Vst3ComponentHandlerProxy
  | .connectionPoint => Vst3ConnectionPointProxy
  | .plugFrame => Vst3PlugFrameProxy
  | .plugView => Vst3PlugViewProxy
  | .hostContext => Vst3HostContextProxy
  | .contextMenu => Vst3ContextMenuProxy

end Kind

/-! ## Flags on the wire -/

section Flags
variable {α β : Type} (B : Bitsery)

theorem flags_fits (is : List Interface) (x : ConstructArgs α β) :
    (Codec.record (is.map (ProxyClass.flag B))).fits x = true := by
  induction is with
  | nil => rfl
  | cons i is ih =>
    rw [List.map_cons, Codec.record_cons_fits, ih]
    rfl

/-- The flags that are sent are overwritten, and only those. -/
theorem flags_put (is : List Interface) (old x : ConstructArgs α β) :
    (Codec.record (is.map (ProxyClass.flag B))).put old x =
      { old with supported := fun i => if i ∈ is then x.supported i else old.supported i } := by
  induction is generalizing old with
  | nil => rfl
  | cons i is ih =>
    rw [List.map_cons, Codec.record_cons_put, ih]
    congr 1
    funext j
    by_cases heq : j = i
    · simp [ProxyClass.flag, heq]
    · simp [ProxyClass.flag, heq]

end Flags

/-- What `queryInterface()` of an object with these interfaces would say, as far as the class
goes. -/
def Lists.answer (l : Lists) (supports : Interface → Bool) : Iid → Option Interface
  | .fUnknown => if supports l.main then some l.main else none
  | .of i => if i ∈ l.bases ∧ supports i then some i else none
  | .other _ => none

/-- No base class is forgotten in any of the lists. -/
structure Lists.Covers (l : Lists) : Prop where
  main : l.main ∈ l.bases
  read : ∀ i ∈ l.bases, i ∈ l.read
  sent : ∀ i ∈ l.bases, i ∈ l.sent
  queried : l.queried = (.fUnknown, l.main) :: l.bases.map fun i => (.of i, i)

theorem find?_queried (supported : Interface → Bool) (bases : List Interface) (j : Interface) :
    (bases.map fun i => (Iid.of i, i)).find? (fun q => supported q.2 && q.1 = .of j) =
      if j ∈ bases ∧ supported j then some (.of j, j) else none := by
  induction bases with
  | nil => rfl
  | cons i bases ih =>
    rw [List.map_cons, List.find?_cons, ih]
    by_cases heq : i = j
    · subst heq
      by_cases hs : supported i
      · simp [hs]
      · simp [hs]
    · simp [heq, Ne.symm heq]

theorem find?_queried_none {_iid : Iid} (h : ∀ i, Iid.of i ≠ _iid) (supported : Interface → Bool)
    (bases : List Interface) :
    (bases.map fun i => (Iid.of i, i)).find? (fun q => supported q.2 && q.1 = _iid) = none := by
  rw [List.find?_eq_none]
  intro q hq
  obtain ⟨i, _, rfl⟩ := List.mem_map.mp hq
  rw [decide_eq_false (h i), Bool.and_false]
  exact Bool.false_ne_true

section Answers
variable {α β : Type} {c : ProxyClass α β}

theorem queryInterface_eq (h : c.Covers) (p : ConstructArgs α β) (_iid : Iid) :
    c.queryInterface p _iid = c.answer p.supported _iid := by
  rw [ProxyClass.queryInterface, h.queried, List.find?_cons]
  cases _iid with
  | fUnknown =>
    have hne (i : Interface) : Iid.of i ≠ .fUnknown := by
      intro heq
      cases heq
    rw [find?_queried_none hne, Lists.answer]
    cases p.supported c.main <;> rfl
  | of j =>
    have hne : Iid.fUnknown ≠ .of j := by
      intro heq
      cases heq
    rw [find?_queried, decide_eq_false hne, Bool.and_false, Lists.answer]
    by_cases hj : j ∈ c.bases ∧ p.supported j
    · rw [if_pos hj, if_pos hj]
      rfl
    · rw [if_neg hj, if_neg hj]
      rfl
  | other id =>
    have hne (i : Interface) : Iid.of i ≠ .other id := by
      intro heq
      cases heq
    have hne' : Iid.fUnknown ≠ .other id := by
      intro heq
      cases heq
    rw [find?_queried_none hne, decide_eq_false hne', Bool.and_false]
    rfl

theorem answer_congr {l : Lists} (h : l.main ∈ l.bases) {s t : Interface → Bool}
    (hst : ∀ i ∈ l.bases, s i = t i) (_iid : Iid) : l.answer s _iid = l.answer t _iid := by
  cases _iid with
  | fUnknown => simp only [Lists.answer, hst l.main h]
  | of j =>
    by_cases hj : j ∈ l.bases
    · simp only [Lists.answer, hst j hj]
    · simp [Lists.answer, hj]
  | other id => rfl

variable (B : Bitsery) (object : Object) (owner : α) (uninitialized : Interface → Bool)
variable (into : ConstructArgs α β)

theorem serialize_put (howner : (c.owner B).Overwrites) (hrest : (c.rest B).Overwrites)
    (args : ConstructArgs α β) : (c.serialize B).put into args =
      { args with
        supported := fun i => if i ∈ c.sent then args.supported i else into.supported i } := by
  unfold ProxyClass.serialize
  rw [List.cons_append, Codec.record_cons_put, Codec.record_append_put, flags_put]
  simp [howner _ _, hrest _ _]

theorem serialize_fits (args : ConstructArgs α β) : (c.serialize B).fits args =
    ((c.owner B).fits args.owner && (c.rest B).fits args.rest) := by
  unfold ProxyClass.serialize
  rw [List.cons_append, Codec.record_cons_fits, Codec.record_append_fits, flags_fits]
  simp

/-- What is sent around the flags arrives as it is. -/
structure ProxyClass.Sends (c : ProxyClass α β) : Prop where
  owner : (c.owner B).Overwrites
  owner_fits : ∀ owner, (c.owner B).fits owner
  rest : (c.rest B).Overwrites

theorem proxy_eq_some (h : c.Sends B) {p : ConstructArgs α β} :
    c.proxy B object owner uninitialized into = some p ↔
      ∃ rest, c.readRest object = some rest ∧ (c.rest B).fits rest ∧ p =
        ⟨owner, fun i => if i ∈ c.sent then if i ∈ c.read then object.supports i
          else uninitialized i else into.supported i, rest⟩ := by
  have hfits (args : ConstructArgs α β) :
      (c.serialize B).fits args = (c.rest B).fits args.rest := by
    rw [serialize_fits, h.owner_fits, Bool.true_and]
  constructor
  · intro hp
    obtain ⟨args, hargs, htransfer⟩ := Option.bind_eq_some_iff.mp hp
    obtain ⟨rest, hrest, rfl⟩ := Option.map_eq_some_iff.mp hargs
    obtain ⟨hsent, rfl⟩ := Codec.transfer_eq_some.mp htransfer
    rw [hfits] at hsent
    exact ⟨rest, hrest, hsent, serialize_put B into h.owner h.rest _⟩
  · intro hp
    obtain ⟨rest, hrest, hsent, rfl⟩ := hp
    have hput := serialize_put B into h.owner h.rest
      ⟨owner, fun i => if i ∈ c.read then object.supports i else uninitialized i, rest⟩
    refine Option.bind_eq_some_iff.mpr ⟨_, Option.map_eq_some_iff.mpr ⟨rest, hrest, rfl⟩, ?_⟩
    refine Codec.transfer_eq_some.mpr ⟨?_, hput.symm⟩
    rw [hfits]
    exact hsent

theorem answers_of_proxy (hcovers : c.Covers) (h : c.Sends B) {p : ConstructArgs α β}
    (hp : c.proxy B object owner uninitialized into = some p) :
    p.owner = owner ∧ (∀ _iid, c.queryInterface p _iid = c.answer object.supports _iid) ∧
      c.readRest object = some p.rest := by
  obtain ⟨rest, hrest, _, rfl⟩ := (proxy_eq_some B object owner uninitialized into h).mp hp
  refine ⟨rfl, ?_, hrest⟩
  intro _iid
  rw [queryInterface_eq hcovers]
  apply answer_congr hcovers.main
  intro i hi
  simp only [if_pos (hcovers.sent i hi), if_pos (hcovers.read i hi)]

end Answers

/-! ## Every class -/

theorem Kind.covers (k : Kind) : k.proxyClass.Covers := by
  cases k <;> exact ⟨List.mem_cons_self, fun _ hi => hi, fun _ hi => hi, rfl⟩

theorem Lists.sends_ofInstance (B : Bitsery) (l : Lists) : l.ofInstance.Sends B :=
  ⟨B.value8b_put, B.value8b_fits, fun _ _ => rfl⟩

theorem Kind.sends (B : Bitsery) (k : Kind) : k.proxyClass.Sends B := by
  cases k with
  | hostContext =>
    refine ⟨B.inPlaceOptional_put_of_overwrites 0 true B.value8b_put, ?_, fun _ _ => rfl⟩
    intro owner
    cases owner with
    | none => rfl
    | some id => exact B.value8b_fits id
  | contextMenu =>
    have hitems : (B.container (2 ^ 16) .empty (IContextMenuItem.serialize B)).Overwrites :=
      fun olds items => Codec.putList_eq _ _ (IContextMenuItem.serialize_overwrites B) olds items
    refine ⟨fun _ _ => rfl, ?_, hitems⟩
    intro owner
    simp [Kind.proxyClass, Vst3ContextMenuProxy]
  | componentHandler => exact Lists.sends_ofInstance B _
  | connectionPoint => exact Lists.sends_ofInstance B _
  | plugFrame => exact Lists.sends_ofInstance B _
  | plugView => exact Lists.sends_ofInstance B _

/-- Which menus can be read and sent. -/
theorem items_sent_iff (B : Bitsery) (object : Object) :
    (∃ items, object.items = some items ∧
      (B.container (2 ^ 16) .empty (IContextMenuItem.serialize B)).fits items) ↔
      (object.supports .contextMenu → 0 ≤ object.getItemCount ∧ object.getItemCount ≤ 65536) := by
  have hmax : 2 ^ 16 < 2 ^ 30 := by omega
  simp only [B.container_fits .empty (IContextMenuItem.serialize B) hmax]
  unfold Object.items
  by_cases hmenu : object.supports .contextMenu
  · by_cases hcount : object.getItemCount < 0
    · have hbad : ¬ (0 ≤ object.getItemCount ∧ object.getItemCount ≤ 65536) := by omega
      simp [hmenu, hcount, hbad]
    · have hgood : 0 ≤ object.getItemCount := Int.not_lt.mp hcount
      simp [hmenu, hcount, hgood]
  · simp [hmenu]

theorem sent_iff {α β : Type} {c : ProxyClass α β} (B : Bitsery) (h : c.Sends B) (object : Object)
    (owner : α) (uninitialized : Interface → Bool) (into : ConstructArgs α β) :
    (∃ p, c.proxy B object owner uninitialized into = some p) ↔
      ∃ rest, c.readRest object = some rest ∧ (c.rest B).fits rest := by
  constructor
  · intro hp
    obtain ⟨p, hp⟩ := hp
    obtain ⟨rest, hrest, hfits, _⟩ :=
      (proxy_eq_some B object owner uninitialized into h).mp hp
    exact ⟨rest, hrest, hfits⟩
  · intro hp
    obtain ⟨rest, hrest, hfits⟩ := hp
    exact ⟨_, (proxy_eq_some B object owner uninitialized into h).mpr ⟨rest, hrest, hfits, rfl⟩⟩

/-- A proxy of any class answers for the object, and the items of its menu are there; only a menu
with too many items, or a negative number of them, does not get across. -/
theorem proxies_mimic (B : Bitsery) (k : Kind) (object : Object) (owner : k.Owner)
    (uninitialized : Interface → Bool) (into : ConstructArgs k.Owner k.Rest) :
    ((∃ p, k.proxyClass.proxy B object owner uninitialized into = some p) ↔
      (k = .contextMenu → object.supports .contextMenu →
        0 ≤ object.getItemCount ∧ object.getItemCount ≤ 65536)) ∧
    ∀ p, k.proxyClass.proxy B object owner uninitialized into = some p →
      p.owner = owner ∧
      (∀ _iid, k.proxyClass.queryInterface p _iid =
        k.proxyClass.answer object.supports _iid) ∧
      k.proxyClass.readRest object = some p.rest := by
  constructor
  · rw [sent_iff B (k.sends B)]
    cases k with
    | contextMenu =>
      rw [forall_prop_of_true rfl]
      exact items_sent_iff B object
    | componentHandler => exact iff_of_true ⟨(), rfl, rfl⟩ nofun
    | connectionPoint => exact iff_of_true ⟨(), rfl, rfl⟩ nofun
    | plugFrame => exact iff_of_true ⟨(), rfl, rfl⟩ nofun
    | plugView => exact iff_of_true ⟨(), rfl, rfl⟩ nofun
    | hostContext => exact iff_of_true ⟨(), rfl, rfl⟩ nofun
  · intro p hp
    exact answers_of_proxy B object owner uninitialized into k.covers (k.sends B) hp

end Vst3.Proxies
