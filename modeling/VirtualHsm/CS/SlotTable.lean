import Mathlib.Algebra.Group.Nat.Defs
import Mathlib.Data.List.Basic
import Mathlib.Data.List.Sigma

/-!
# Slot tables with versions and a free list

A slot table stores objects in numbered slots. A slot that is released goes to the head of a
linked free list and its version grows when it is used again, so that a reference made of index
and version does not survive the object it was made for. Indices and versions are 32-bit.
-/

namespace CS

variable {α : Type*}

/-- The index that ends the free list. -/
def noSlot : UInt32 := 0xFFFFFFFF

/-- One slot; it is free exactly when it holds no object. -/
structure SlotEntry (α : Type*) where
  object : Option α
  version : UInt32
  isFree : Bool
  nextFree : UInt32
  free_iff : isFree = object.isNone

namespace SlotEntry

/-- A slot as it is appended to the table. -/
def fresh : SlotEntry α := ⟨none, 0, true, noSlot, rfl⟩

/-- Put an object into the slot under its next version. -/
def occupy (e : SlotEntry α) (o : α) : SlotEntry α :=
  ⟨some o, e.version + 1, false, e.nextFree, rfl⟩

/-- Take the object out and link the slot to the free list. -/
def vacate (e : SlotEntry α) (next : UInt32) : SlotEntry α := ⟨none, e.version, true, next, rfl⟩

/-- Change the object of the slot, if there is one. -/
def modify (e : SlotEntry α) (f : α → α) : SlotEntry α :=
  ⟨e.object.map f, e.version, e.isFree, e.nextFree, by rw [e.free_iff, Option.isNone_map]⟩

/-- Version and object of an occupied slot. -/
def content (e : SlotEntry α) : Option (UInt32 × α) := e.object.map fun o => (e.version, o)

@[simp] theorem content_modify (e : SlotEntry α) (f : α → α) :
    (e.modify f).content = e.content.map fun c => (c.1, f c.2) := by
  simp [modify, content, Function.comp_def]

theorem isFree_iff_content {e : SlotEntry α} : e.isFree = true ↔ e.content = none := by
  simp [e.free_iff, content]

end SlotEntry

/-- `FreeChain entries head l`: following the links from `head` visits the free slots `l`, each
once, and ends. -/
inductive FreeChain (entries : List (SlotEntry α)) : UInt32 → List UInt32 → Prop
  | nil : FreeChain entries noSlot []
  | cons {i : UInt32} {rest : List UInt32} {e : SlotEntry α} (hi : i ≠ noSlot)
      (hget : entries[i.toNat]? = some e) (hfree : e.isFree = true) (hnew : i ∉ rest)
      (hrest : FreeChain entries e.nextFree rest) : FreeChain entries i (i :: rest)

namespace FreeChain

variable {entries entries' : List (SlotEntry α)} {head : UInt32} {l : List UInt32}

/-- A chain only depends on the slots it visits. -/
theorem congr (h : FreeChain entries head l)
    (hsame : ∀ i ∈ l, entries'[i.toNat]? = entries[i.toNat]?) : FreeChain entries' head l := by
  induction h with
  | nil => exact .nil
  | cons hi hget hfree hnew hrest ih =>
    refine .cons hi ?_ hfree hnew (ih fun j hj => hsame j (List.mem_cons_of_mem _ hj))
    rw [hsame _ List.mem_cons_self, hget]

/-- A chain that does not end at once starts with a free slot. -/
theorem exists_of_ne (h : FreeChain entries head l) (hne : head ≠ noSlot) :
    ∃ e rest, l = head :: rest ∧ entries[head.toNat]? = some e ∧ e.isFree = true ∧
      head ∉ rest ∧ FreeChain entries e.nextFree rest := by
  cases h with
  | nil => exact absurd rfl hne
  | cons hi hget hfree hnew hrest => exact ⟨_, _, rfl, hget, hfree, hnew, hrest⟩

theorem isFree_of_mem (h : FreeChain entries head l) {i : UInt32} (hi : i ∈ l) :
    ∃ e, entries[i.toNat]? = some e ∧ e.isFree = true := by
  induction h with
  | nil => cases hi
  | cons hne hget hfree hnew hrest ih =>
    rcases List.mem_cons.mp hi with rfl | hi
    · exact ⟨_, hget, hfree⟩
    · exact ih hi

theorem nodup (h : FreeChain entries head l) : l.Nodup := by
  induction h with
  | nil => exact List.nodup_nil
  | cons hi hget hfree hnew hrest ih => exact List.nodup_cons.mpr ⟨hnew, ih⟩

theorem eq_nil (h : FreeChain entries noSlot l) : l = [] := by
  cases h with
  | nil => rfl
  | cons hi hget hfree hnew hrest => exact absurd rfl hi

/-- Changing the objects changes no link. -/
theorem map (h : FreeChain entries head l) (f : α → α) :
    FreeChain (entries.map (·.modify f)) head l := by
  induction h with
  | nil => exact .nil
  | @cons i rest e hi hget hfree hnew hrest ih =>
    have hget' : (entries.map (·.modify f))[i.toNat]? = some (e.modify f) := by
      rw [List.getElem?_map, hget, Option.map_some]
    exact .cons hi hget' hfree hnew ih

end FreeChain

/-- A table of slots with its free list. Slots beyond the 32-bit indices are never used. -/
structure SlotTable (α : Type*) where
  entries : List (SlotEntry α)
  freeHead : UInt32
  chain : ∃ l, FreeChain entries freeHead l
  high_free : ∀ i e, 2 ^ 32 ≤ i → entries[i]? = some e → e.isFree = true

namespace SlotTable

/-- The table without slots. -/
def empty : SlotTable α := ⟨[], noSlot, ⟨[], .nil⟩, by simp⟩

/-- Version and object of an occupied slot. -/
def get (t : SlotTable α) (i : UInt32) : Option (UInt32 × α) :=
  t.entries[i.toNat]?.bind SlotEntry.content

section Set

variable {entries : List (SlotEntry α)} {i : UInt32} {e : SlotEntry α}

private theorem getElem?_set_of_ne {j : UInt32} (h : j ≠ i) :
    (entries.set i.toNat e)[j.toNat]? = entries[j.toNat]? :=
  List.getElem?_set_ne fun heq => h (UInt32.toNat_inj.mp heq.symm)

private theorem high_free_set
    (hhigh : ∀ j e', 2 ^ 32 ≤ j → entries[j]? = some e' → e'.isFree = true) :
    ∀ j e', 2 ^ 32 ≤ j → (entries.set i.toNat e)[j]? = some e' → e'.isFree = true := by
  intro j e' hj hget
  have hne : i.toNat ≠ j := by have := i.toNat_lt; omega
  rw [List.getElem?_set_ne hne] at hget
  exact hhigh j e' hj hget

end Set

/-! ### Allocation -/

/-- The slot the next object goes to: the head of the free list, or a new slot at the end,
whose number is cut to 32 bits. -/
def allocIndex (t : SlotTable α) : UInt32 :=
  if t.freeHead ≠ noSlot then t.freeHead else UInt32.ofNat t.entries.length

/-- The table in which `allocIndex` names a slot. -/
def grown (t : SlotTable α) : List (SlotEntry α) :=
  if t.freeHead ≠ noSlot then t.entries else t.entries ++ [SlotEntry.fresh]

/-- The slot that `allocIndex` names, before the object is put into it. -/
def allocEntry (t : SlotTable α) : SlotEntry α :=
  t.grown[t.allocIndex.toNat]?.getD SlotEntry.fresh

/-- The version the next object gets. -/
def allocVersion (t : SlotTable α) : UInt32 := t.allocEntry.version + 1

variable (t : SlotTable α) {c : UInt32 × α} {i : UInt32}

theorem getElem?_allocIndex : t.grown[t.allocIndex.toNat]? = some t.allocEntry := by
  suffices h : ∃ e, t.grown[t.allocIndex.toNat]? = some e by
    obtain ⟨e, he⟩ := h
    rw [allocEntry, he, Option.getD_some]
  unfold grown allocIndex
  by_cases hhead : t.freeHead ≠ noSlot
  · obtain ⟨l, hl⟩ := t.chain
    obtain ⟨e, rest, -, hget, -⟩ := hl.exists_of_ne hhead
    rw [if_pos hhead, if_pos hhead]
    exact ⟨e, hget⟩
  · rw [if_neg hhead, if_neg hhead]
    have hlt : (UInt32.ofNat t.entries.length).toNat < (t.entries ++ [SlotEntry.fresh]).length := by
      have hmod : (UInt32.ofNat t.entries.length).toNat ≤ t.entries.length := by
        rw [UInt32.toNat_ofNat']
        exact Nat.mod_le _ _
      rw [List.length_append, List.length_singleton]
      omega
    exact ⟨_, List.getElem?_eq_getElem hlt⟩

/-- The grown table has the slots of the table, and perhaps a fresh one behind them. -/
theorem getElem?_grown (i : Nat) :
    t.grown[i]? = t.entries[i]? ∨ t.entries[i]? = none ∧ t.grown[i]? = some SlotEntry.fresh := by
  unfold grown
  split
  · exact .inl rfl
  rcases Nat.lt_trichotomy i t.entries.length with hlt | heq | hgt
  · exact .inl (List.getElem?_append_left hlt)
  · subst heq
    exact .inr (by simp)
  · left
    rw [List.getElem?_eq_none (by simp; omega), List.getElem?_eq_none (by omega)]

/-- Appending a fresh slot occupies nothing. -/
theorem content_grown (i : Nat) :
    t.grown[i]?.bind SlotEntry.content = t.entries[i]?.bind SlotEntry.content := by
  rcases t.getElem?_grown i with hsame | ⟨hnone, hfresh⟩
  · rw [hsame]
  · rw [hnone, hfresh]
    rfl

/-- Allocation takes the first slot off the free list. -/
private theorem chain_set_allocIndex (e : SlotEntry α) {l : List UInt32}
    (hl : FreeChain t.entries t.freeHead l) :
    FreeChain (t.grown.set t.allocIndex.toNat e)
      (if t.freeHead ≠ noSlot then t.allocEntry.nextFree else noSlot) l.tail := by
  by_cases hhead : t.freeHead ≠ noSlot
  · have hentry := t.getElem?_allocIndex
    rw [grown, allocIndex, if_pos hhead, if_pos hhead] at hentry
    rw [grown, allocIndex, if_pos hhead, if_pos hhead, if_pos hhead]
    obtain ⟨e', rest, rfl, hget, -, hnew, hrest⟩ := hl.exists_of_ne hhead
    have heq : e' = t.allocEntry := Option.mem_unique hget hentry
    rw [← heq]
    refine hrest.congr fun j hj => getElem?_set_of_ne fun hji => hnew ?_
    rwa [← hji]
  · rw [if_neg hhead]
    rw [not_not.mp hhead] at hl
    rw [hl.eq_nil]
    exact .nil

private theorem high_free_grown : ∀ i e, 2 ^ 32 ≤ i → t.grown[i]? = some e → e.isFree = true := by
  intro i e hi hget
  rw [SlotEntry.isFree_iff_content]
  have hcontent := t.content_grown i
  rw [hget, Option.bind_some] at hcontent
  rw [hcontent]
  cases hold : t.entries[i]? with
  | none => rfl
  | some e' => exact SlotEntry.isFree_iff_content.mp (t.high_free i e' hi hold)

/-- Put an object into the next slot. -/
def alloc (t : SlotTable α) (o : α) : SlotTable α where
  entries := t.grown.set t.allocIndex.toNat (t.allocEntry.occupy o)
  freeHead := if t.freeHead ≠ noSlot then t.allocEntry.nextFree else noSlot
  chain := t.chain.imp' List.tail fun _ hl => t.chain_set_allocIndex _ hl
  high_free := high_free_set t.high_free_grown

theorem get_alloc (o : α) (i : UInt32) :
    (t.alloc o).get i = if i = t.allocIndex then some (t.allocVersion, o) else t.get i := by
  unfold get alloc
  by_cases hi : i = t.allocIndex
  · subst hi
    have hlt := (List.getElem?_eq_some_iff.mp t.getElem?_allocIndex).1
    rw [if_pos rfl, List.getElem?_set_self hlt]
    rfl
  · rw [if_neg hi, getElem?_set_of_ne hi, content_grown]

theorem length_alloc_le (o : α) : (t.alloc o).entries.length ≤ t.entries.length + 1 := by
  have hgrown : t.grown.length ≤ t.entries.length + 1 := by
    unfold grown
    split_ifs
    · exact Nat.le_succ _
    · exact Nat.le_of_eq List.length_append
  rw [alloc, List.length_set]
  exact hgrown

/-- Below the capacity, the next object goes to a slot that is not occupied. -/
theorem get_allocIndex (hcap : t.entries.length < 2 ^ 32) : t.get t.allocIndex = none := by
  unfold get allocIndex
  split
  · next hhead =>
    obtain ⟨l, hl⟩ := t.chain
    obtain ⟨e, rest, -, hget, hfree, -⟩ := hl.exists_of_ne hhead
    rw [hget, Option.bind_some]
    exact SlotEntry.isFree_iff_content.mp hfree
  · have hindex : (UInt32.ofNat t.entries.length).toNat = t.entries.length :=
      UInt32.toNat_ofNat_of_lt' hcap
    rw [hindex, List.getElem?_eq_none (Nat.le_refl _)]
    rfl

/-! ### Release and modification -/

/-- Overwriting an occupied slot moves to its next version. -/
theorem allocVersion_of_get (h : t.get t.allocIndex = some c) : t.allocVersion = c.1 + 1 := by
  have hcontent : t.allocEntry.content = some c := by
    have hgrown := t.content_grown t.allocIndex.toNat
    rw [t.getElem?_allocIndex, Option.bind_some] at hgrown
    rw [hgrown]
    exact h
  obtain ⟨o, -, rfl⟩ := Option.map_eq_some_iff.mp hcontent
  rfl

private theorem chain_set_of_get
    (h : t.get i = some c) {l : List UInt32} (hl : FreeChain t.entries t.freeHead l)
    (e : SlotEntry α) : i ∉ l ∧ FreeChain (t.entries.set i.toNat e) t.freeHead l := by
  have hni : i ∉ l := by
    intro hi
    obtain ⟨e', hget, hfree⟩ := hl.isFree_of_mem hi
    rw [get, hget, Option.bind_some, SlotEntry.isFree_iff_content.mp hfree] at h
    cases h
  refine ⟨hni, hl.congr fun j hj => getElem?_set_of_ne fun hji => hni ?_⟩
  rwa [← hji]

private theorem lt_of_get {t : SlotTable α}
    (h : t.get i = some c) : i.toNat < t.entries.length := by
  by_contra hge
  rw [get, List.getElem?_eq_none (by omega)] at h
  cases h

private theorem chain_release (h : t.get i = some c) (e : SlotEntry α) :
    ∃ l, FreeChain (t.entries.set i.toNat (e.vacate t.freeHead)) i l := by
  by_cases hi : i = noSlot
  · exact hi ▸ ⟨[], .nil⟩
  obtain ⟨l, hl⟩ := t.chain
  obtain ⟨hni, hchain⟩ := t.chain_set_of_get h hl (e.vacate t.freeHead)
  exact ⟨i :: l, .cons hi (List.getElem?_set_self (lt_of_get h)) rfl hni hchain⟩

/-- Release an occupied slot to the head of the free list. -/
def release (t : SlotTable α) (i : UInt32) : SlotTable α :=
  match h : t.get i with
  | none => t
  | some _ =>
    { entries := t.entries.set i.toNat
        ((t.entries[i.toNat]?.getD SlotEntry.fresh).vacate t.freeHead)
      freeHead := i
      chain := t.chain_release h _
      high_free := high_free_set t.high_free }

theorem get_release (i j : UInt32) : (t.release i).get j = if j = i then none else t.get j := by
  unfold release
  split
  · next h => split <;> simp_all
  · next c h =>
    by_cases hj : j = i
    · subst hj
      rw [if_pos rfl, get, List.getElem?_set_self (lt_of_get h)]
      rfl
    · rw [if_neg hj, get, getElem?_set_of_ne hj, get]

/-- Change the object of an occupied slot in place. -/
def modify (t : SlotTable α) (i : UInt32) (f : α → α) : SlotTable α :=
  match h : t.get i with
  | none => t
  | some _ =>
    { entries := t.entries.set i.toNat
        ((t.entries[i.toNat]?.getD SlotEntry.fresh).modify f)
      freeHead := t.freeHead
      chain := t.chain.imp fun _ hl => (t.chain_set_of_get h hl _).2
      high_free := high_free_set t.high_free }

theorem get_modify (i : UInt32) (f : α → α) (j : UInt32) :
    (t.modify i f).get j = if j = i then (t.get i).map fun c => (c.1, f c.2) else t.get j := by
  unfold modify
  split
  · next h => split <;> simp_all
  · next c h =>
    by_cases hj : j = i
    · subst hj
      have hlt := lt_of_get h
      rw [if_pos rfl, get, List.getElem?_set_self hlt, List.getElem?_eq_getElem hlt,
        Option.getD_some, Option.bind_some, SlotEntry.content_modify, get,
        List.getElem?_eq_getElem hlt, Option.bind_some]
    · rw [if_neg hj, get, getElem?_set_of_ne hj, get]

theorem length_modify (i : UInt32) (f : α → α) :
    (t.modify i f).entries.length = t.entries.length := by
  unfold modify
  split
  · rfl
  · exact List.length_set

/-! ### Enumeration -/

/-- Index, version and object of every occupied slot, in order. -/
def occupied (t : SlotTable α) : List (UInt32 × UInt32 × α) :=
  t.entries.zipIdx.filterMap fun p => p.1.content.map fun c => (UInt32.ofNat p.2, c)

/-- Change every object of the table. -/
def map (t : SlotTable α) (f : α → α) : SlotTable α where
  entries := t.entries.map (·.modify f)
  freeHead := t.freeHead
  chain := t.chain.imp fun _ hl => hl.map f
  high_free i e hi he := by
    rw [List.getElem?_map] at he
    obtain ⟨e', he', rfl⟩ := Option.map_eq_some_iff.mp he
    exact t.high_free i e' hi he'

theorem get_map (f : α → α) (i : UInt32) :
    (t.map f).get i = (t.get i).map fun c => (c.1, f c.2) := by
  simp only [get, map, List.getElem?_map]
  cases t.entries[i.toNat]? with
  | none => rfl
  | some e => exact e.content_modify f

theorem map_map (f g : α → α) : (t.map f).map g = t.map fun o => g (f o) := by
  simp [map, SlotEntry.modify, Function.comp_def]

theorem occupied_map (f : α → α) :
    (t.map f).occupied = t.occupied.map fun s => (s.1, s.2.1, f s.2.2) := by
  simp only [occupied, map, List.zipIdx_map, List.filterMap_map, List.map_filterMap]
  congr 1
  funext p
  simp [SlotEntry.content_modify, Function.comp_def]

theorem mem_occupied {t : SlotTable α} : (i, c) ∈ t.occupied ↔ t.get i = some c := by
  simp only [occupied, List.mem_filterMap, Option.map_eq_some_iff, Prod.mk.injEq]
  constructor
  · rintro ⟨⟨e, n⟩, hmem, d, hd, hn, rfl⟩
    have hget : t.entries[n]? = some e := List.mem_zipIdx_iff_getElem?.mp hmem
    have hlt : n < 2 ^ 32 := by
      by_contra hge
      have hfree := t.high_free n e (by omega) hget
      rw [SlotEntry.isFree_iff_content.mp hfree] at hd
      cases hd
    rw [get, ← hn, UInt32.toNat_ofNat_of_lt' hlt, hget]
    exact hd
  · intro h
    obtain ⟨e, he, hc⟩ := Option.bind_eq_some_iff.mp h
    exact ⟨(e, i.toNat), List.mem_zipIdx_iff_getElem?.mpr he, c, hc, by simp⟩

/-- No slot is enumerated twice. -/
theorem pairwise_occupied : t.occupied.Pairwise fun a b => a.1 ≠ b.1 := by
  have hindex : t.entries.zipIdx.Pairwise fun p q => p.2 ≠ q.2 :=
    List.pairwise_map.mp (List.nodup_zipIdx_map_snd t.entries)
  -- The enumeration cuts the numbers to 32 bits, which loses nothing where a slot is occupied.
  have hlow : ∀ p ∈ t.entries.zipIdx, ∀ c, p.1.content = some c → p.2 < 2 ^ 32 := by
    intro p hp c hc
    by_contra hge
    have hget : t.entries[p.2]? = some p.1 := List.mem_zipIdx_iff_getElem?.mp hp
    have hfree := t.high_free p.2 p.1 (by omega) hget
    rw [SlotEntry.isFree_iff_content.mp hfree] at hc
    cases hc
  rw [occupied, List.pairwise_filterMap]
  refine hindex.imp_of_mem fun {p q} hp hq hne => ?_
  intro a ha b hb heq
  obtain ⟨c, hc, rfl⟩ := Option.map_eq_some_iff.mp ha
  obtain ⟨d, hd, rfl⟩ := Option.map_eq_some_iff.mp hb
  have hnat := congrArg UInt32.toNat heq
  rw [UInt32.toNat_ofNat_of_lt' (hlow p hp c hc), UInt32.toNat_ofNat_of_lt' (hlow q hq d hd)]
    at hnat
  exact hne hnat

/-! ### Versions -/

/-- How often the slot has been used, in 32 bits. -/
def version (t : SlotTable α) (i : UInt32) : UInt32 :=
  (t.entries[i.toNat]?.map SlotEntry.version).getD 0

theorem version_of_get {t : SlotTable α} (h : t.get i = some c) : t.version i = c.1 := by
  obtain ⟨e, he, hc⟩ := Option.bind_eq_some_iff.mp h
  obtain ⟨o, -, rfl⟩ := Option.map_eq_some_iff.mp hc
  rw [version, he]
  rfl

/-- A slot that does not exist yet has the version it is appended with. -/
theorem version_grown (i : Nat) :
    (t.grown[i]?.map SlotEntry.version).getD 0 = (t.entries[i]?.map SlotEntry.version).getD 0 := by
  rcases t.getElem?_grown i with hsame | ⟨hnone, hfresh⟩
  · rw [hsame]
  · rw [hnone, hfresh]
    rfl

theorem version_alloc (o : α) (i : UInt32) :
    (t.alloc o).version i = t.version i + if i = t.allocIndex then 1 else 0 := by
  unfold version
  rw [← t.version_grown, alloc]
  by_cases hi : i = t.allocIndex
  · subst hi
    have hlt := (List.getElem?_eq_some_iff.mp t.getElem?_allocIndex).1
    rw [if_pos rfl, List.getElem?_set_self hlt, t.getElem?_allocIndex]
    rfl
  · rw [if_neg hi, getElem?_set_of_ne hi, UInt32.add_zero]

private theorem version_set {e : SlotEntry α} (he : e.version = t.version i) (j : UInt32) :
    ((t.entries.set i.toNat e)[j.toNat]?.map SlotEntry.version).getD 0 = t.version j := by
  by_cases hj : j = i
  · subst hj
    rw [List.getElem?_set]
    split_ifs with heq hlt
    · exact he
    · rw [version, List.getElem?_eq_none (by omega)]
    · exact absurd rfl heq
  · rw [getElem?_set_of_ne hj, version]

@[simp] theorem version_release (i j : UInt32) : (t.release i).version j = t.version j := by
  unfold release
  split
  · rfl
  · next c h =>
    refine t.version_set ?_ j
    rw [version, List.getElem?_eq_getElem (lt_of_get h)]
    rfl

@[simp] theorem version_modify (i : UInt32) (f : α → α) (j : UInt32) :
    (t.modify i f).version j = t.version j := by
  unfold modify
  split
  · rfl
  · next c h =>
    refine t.version_set ?_ j
    rw [version, List.getElem?_eq_getElem (lt_of_get h)]
    rfl

theorem length_le_alloc (o : α) : t.entries.length ≤ (t.alloc o).entries.length := by
  have hgrown : t.entries.length ≤ t.grown.length := by
    unfold grown
    split_ifs
    · exact Nat.le_refl _
    · rw [List.length_append]
      exact Nat.le_add_right _ _
  rw [alloc, List.length_set]
  exact hgrown

theorem length_release (i : UInt32) : (t.release i).entries.length = t.entries.length := by
  unfold release
  split
  · rfl
  · exact List.length_set

/-! ### The free list is complete -/

/-- The free list holds every free slot. -/
def ListsFree (t : SlotTable α) : Prop :=
  ∃ l, FreeChain t.entries t.freeHead l ∧
    ∀ (i : UInt32) (e : SlotEntry α), t.entries[i.toNat]? = some e → e.isFree = true → i ∈ l

theorem listsFree_empty : (empty : SlotTable α).ListsFree :=
  ⟨[], .nil, fun i e he => by simp [empty] at he⟩

namespace ListsFree

variable {t : SlotTable α}

/-- The free list holds the free slots, each once, and nothing else. -/
theorem exists_nodup (h : t.ListsFree) :
    ∃ l, FreeChain t.entries t.freeHead l ∧ l.Nodup ∧
      ∀ i : UInt32, i ∈ l ↔ ∃ e, t.entries[i.toNat]? = some e ∧ e.isFree = true := by
  obtain ⟨l, hl, hall⟩ := h
  refine ⟨l, hl, hl.nodup, fun i => ⟨hl.isFree_of_mem, ?_⟩⟩
  rintro ⟨e, he, hfree⟩
  exact hall i e he hfree

protected theorem alloc (h : t.ListsFree) (o : α) : (t.alloc o).ListsFree := by
  obtain ⟨l, hl, hall⟩ := h
  refine ⟨l.tail, t.chain_set_allocIndex _ hl, fun i e he hfree => ?_⟩
  -- A slot that is free afterwards is another one than the slot just taken.
  have hi : i ≠ t.allocIndex := by
    intro heq
    have hget := t.get_alloc o i
    rw [if_pos heq, get, he, Option.bind_some, SlotEntry.isFree_iff_content.mp hfree] at hget
    cases hget
  have hold : t.grown[i.toNat]? = some e := by
    rw [← he]
    exact (getElem?_set_of_ne hi).symm
  by_cases hhead : t.freeHead ≠ noSlot
  · rw [grown, if_pos hhead] at hold
    rw [allocIndex, if_pos hhead] at hi
    obtain ⟨-, rest, rfl, -⟩ := hl.exists_of_ne hhead
    exact (List.mem_cons.mp (hall i e hold hfree)).resolve_left hi
  · -- The list was empty, so the only free slot is the one that was appended.
    rw [grown, if_neg hhead] at hold
    rw [allocIndex, if_neg hhead] at hi
    rw [not_not.mp hhead] at hl
    have hlt := (List.getElem?_eq_some_iff.mp hold).1
    rw [List.length_append, List.length_singleton] at hlt
    have hne : i.toNat ≠ t.entries.length := by
      intro heq
      apply hi
      rw [← heq, UInt32.ofNat_toNat]
    rw [List.getElem?_append_left (by omega)] at hold
    have hmem := hall i e hold hfree
    rw [hl.eq_nil] at hmem
    cases hmem

/-- Below the capacity, the slot that ends the list is none of the table's. -/
protected theorem release (h : t.ListsFree) (hcap : t.entries.length < 2 ^ 32) (i : UInt32) :
    (t.release i).ListsFree := by
  unfold SlotTable.release
  split
  · exact h
  next c hget =>
  obtain ⟨l, hl, hall⟩ := h
  have hi : i ≠ noSlot := by
    intro heq
    have hlt := lt_of_get hget
    rw [heq] at hlt
    have hno : noSlot.toNat = 2 ^ 32 - 1 := rfl
    omega
  obtain ⟨hni, hchain⟩ := t.chain_set_of_get hget hl
    ((t.entries[i.toNat]?.getD SlotEntry.fresh).vacate t.freeHead)
  refine ⟨i :: l, .cons hi (List.getElem?_set_self (lt_of_get hget)) rfl hni hchain, ?_⟩
  intro j e he hfree
  by_cases hj : j = i
  · exact hj ▸ List.mem_cons_self
  · rw [getElem?_set_of_ne hj] at he
    exact List.mem_cons_of_mem i (hall j e he hfree)

protected theorem modify (h : t.ListsFree) (i : UInt32) (f : α → α) : (t.modify i f).ListsFree := by
  unfold SlotTable.modify
  split
  · exact h
  next c hget =>
  obtain ⟨l, hl, hall⟩ := h
  refine ⟨l, (t.chain_set_of_get hget hl _).2, fun j e he hfree => ?_⟩
  by_cases hj : j = i
  · -- An occupied slot stays occupied.
    subst hj
    have hlt := lt_of_get hget
    rw [List.getElem?_set_self hlt, List.getElem?_eq_getElem hlt, Option.getD_some] at he
    cases he
    exact hall j _ (List.getElem?_eq_getElem hlt) hfree
  · rw [getElem?_set_of_ne hj] at he
    exact hall j e he hfree

end ListsFree

end SlotTable

end CS
