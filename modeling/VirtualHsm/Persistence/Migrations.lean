import VirtualHsm.CS.KeyedTable
import VirtualHsm.Core.Utils

/-!
# Migrations of the payload format

A registry holds at most one upgrade from each version to the next. Bringing a payload from one
version to a later one runs the upgrades in between one after the other, and stops at the first
version from which none is registered.
-/

namespace VirtualHsm

/-- An upgrade of a payload from one version to the next; it may throw. -/
abbrev MigrationFn := Bytes → Except String Bytes

structure Migration where
  fromVersion : UInt32
  fn : MigrationFn

/-- The registered upgrades, one from a version. -/
abbrev MigrationRegistry := CS.KeyedTable Migration.fromVersion

namespace MigrationRegistry

/-- `register_migration`, with the path the source was compiled under; a version that has an upgrade
keeps it. -/
def registerMigration (file : String) (r : MigrationRegistry) (fromVersion : UInt32)
    (fn : Option MigrationFn) : Except String (Bool × MigrationRegistry) := do
  checkMsg fn.isSome "register_migration: null migration function" file 16
  match fn.bind fun fn => r.insert ⟨fromVersion, fn⟩ with
  | some r' => return (true, r')
  | none => return (false, r)

/-- The loop of `migrate`. -/
def upgrade (r : MigrationRegistry) (target current : UInt32) (data : Bytes) :
    Except String Bytes :=
  if current < target then
    match r.find current with
    | none => .error ("migrate: no migration registered from version " ++ toString current.toNat)
    | some m => do
      let data ← m.fn data
      upgrade r target (current + 1) data
  else .ok data
termination_by target.toNat - current.toNat
decreasing_by
  rename_i hlt
  have := UInt32.lt_iff_toNat_lt.mp hlt
  have := target.toNat_lt
  have : (current + 1).toNat = current.toNat + 1 := by
    rw [UInt32.toNat_add, UInt32.toNat_one, Nat.mod_eq_of_lt (by omega)]
  omega

def migrate (r : MigrationRegistry) (data : Bytes) (fromVersion target : UInt32) :
    Except String Bytes :=
  if fromVersion = target then .ok data
  else if target < fromVersion then .error "migrate: cannot downgrade (from > target)"
  else r.upgrade target fromVersion data

/-- The larger of the maximum so far and a version from which an upgrade is registered. -/
def noteFrom (maxFrom : UInt32) (m : Migration) : UInt32 :=
  if maxFrom < m.fromVersion then m.fromVersion else maxFrom

def maxFrom (r : MigrationRegistry) : UInt32 := r.rows.foldl noteFrom 0

/-- `current_version`: with no upgrade registered, the format is the first one. -/
def currentVersion (r : MigrationRegistry) : UInt32 := r.maxFrom + 1

/-- An upgrade from the version is registered. -/
def Registered (r : MigrationRegistry) (v : UInt32) : Prop := (r.find v).isSome

instance (r : MigrationRegistry) (v : UInt32) : Decidable (r.Registered v) :=
  inferInstanceAs (Decidable ((r.find v).isSome = true))

/-- No registered upgrade throws. -/
def Total (r : MigrationRegistry) : Prop := ∀ m ∈ r.rows, ∀ d, ∃ d', m.fn d = .ok d'

/-- With an upgrade from a version, those from version 1 up to it are registered. -/
def GapFree (r : MigrationRegistry) : Prop :=
  ∀ v w, 1 ≤ v → v ≤ w → r.Registered w → r.Registered v

variable {r : MigrationRegistry} {a b c v : UInt32} {d : Bytes}

/-- A registration never replaces an upgrade that is there. -/
theorem find_registerMigration {file : String} {fromVersion : UInt32} {fn : MigrationFn}
    {inserted : Bool} {r' : MigrationRegistry}
    (h : r.registerMigration file fromVersion (some fn) = .ok (inserted, r')) :
    r'.find v = if v = fromVersion then (r.find v).or (some ⟨fromVersion, fn⟩) else r.find v := by
  change (match r.insert ⟨fromVersion, fn⟩ with
    | some r' => Except.ok (true, r')
    | none => Except.ok (false, r)) = _ at h
  cases hinsert : r.insert ⟨fromVersion, fn⟩ with
  | some t =>
    rw [hinsert] at h
    cases h
    rw [CS.KeyedTable.find_insert hinsert]
    split_ifs with hv
    · rw [hv, CS.KeyedTable.find_eq_none_iff.mpr (CS.KeyedTable.insert_eq_some hinsert).1,
        Option.none_or]
    · rfl
  | none =>
    rw [hinsert] at h
    cases h
    split_ifs with hv
    · cases hfind : r.find v with
      | some m => rfl
      | none =>
        obtain ⟨t, ht⟩ := CS.KeyedTable.exists_insert (r := (⟨v, fn⟩ : Migration)) hfind
        cases hinsert.symm.trans (hv ▸ ht)
    · rfl

/-! ### The loop -/

theorem toNat_succ (h : a < b) : (a + 1).toNat = a.toNat + 1 := by
  have hlt := UInt32.lt_iff_toNat_lt.mp h
  have hb := b.toNat_lt
  rw [UInt32.toNat_add, UInt32.toNat_one, Nat.mod_eq_of_lt (by omega)]

theorem succ_le_of_lt (h : a < b) : a + 1 ≤ b := by
  rw [UInt32.le_iff_toNat_le, toNat_succ h]
  exact UInt32.lt_iff_toNat_lt.mp h

@[simp] theorem upgrade_self : r.upgrade a a d = .ok d := by
  rw [upgrade, if_neg (UInt32.lt_irrefl a)]

/-- The checks before the loop only concern a target below the version. -/
theorem migrate_eq_upgrade (h : a ≤ b) : r.migrate d a b = r.upgrade b a d := by
  unfold migrate
  split_ifs with heq hlt
  · rw [heq, upgrade_self]
  · exact absurd hlt (UInt32.not_lt.mpr h)
  · rfl

theorem upgrade_of_find (hlt : a < b) {m : Migration} (hm : r.find a = some m) :
    r.upgrade b a d = (m.fn d >>= r.upgrade b (a + 1)) := by
  rw [upgrade, if_pos hlt, hm]

theorem upgrade_of_not_registered (hlt : a < b) (ha : r.find a = none) :
    r.upgrade b a d =
      .error ("migrate: no migration registered from version " ++ toString a.toNat) := by
  rw [upgrade, if_pos hlt, ha]

theorem upgrade_trans (hab : a ≤ b) (hbc : b ≤ c) :
    r.upgrade c a d = (r.upgrade b a d >>= r.upgrade c b) := by
  -- Induction on the loop up to the version in between.
  fun_induction upgrade r b a d with
  | case1 a d hlt hnone => exact upgrade_of_not_registered (UInt32.lt_of_lt_of_le hlt hbc) hnone
  | case2 a d hlt m hm ih =>
    rw [upgrade_of_find (UInt32.lt_of_lt_of_le hlt hbc) hm, bind_assoc]
    congr 1
    funext d'
    exact ih d' (succ_le_of_lt hlt)
  | case3 a d hnot =>
    obtain rfl : a = b := UInt32.le_antisymm hab (UInt32.not_lt.mp hnot)
    rfl

theorem exists_upgrade_iff (hr : r.Total) (hab : a ≤ b) :
    (∃ d', r.upgrade b a d = .ok d') ↔ ∀ v, a ≤ v → v < b → r.Registered v := by
  fun_induction upgrade r b a d with
  | case1 a d hlt hnone =>
    constructor
    · rintro ⟨d', h⟩
      cases h
    · intro hall
      have ha := hall a (UInt32.le_refl a) hlt
      rw [Registered, hnone] at ha
      cases ha
  | case2 a d hlt m hm ih =>
    have ha : r.Registered a := by rw [Registered, hm]; rfl
    obtain ⟨d₁, hd₁⟩ := hr m (CS.KeyedTable.find_eq_some_iff.mp hm).1 d
    rw [hd₁]
    refine (ih d₁ (succ_le_of_lt hlt)).trans ⟨fun hall v hv => ?_, fun hall v hv => hall v ?_⟩
    · -- The version itself, or one of those the rest of the loop passes.
      rcases UInt32.lt_or_eq_of_le hv with hlt' | rfl
      · exact hall v (succ_le_of_lt hlt')
      · exact fun _ => ha
    · rw [UInt32.le_iff_toNat_le, toNat_succ hlt] at hv
      exact UInt32.le_iff_toNat_le.mpr (Nat.le_of_succ_le hv)
  | case3 a d hnot =>
    refine ⟨fun _ v hv hlt => ?_, fun _ => ⟨d, rfl⟩⟩
    exact absurd (UInt32.lt_of_le_of_lt hv hlt) hnot

/-! ### Migrations -/

theorem migrate_trans (hab : a ≤ b) (hbc : b ≤ c) :
    r.migrate d a c = (r.migrate d a b >>= fun d' => r.migrate d' b c) := by
  rw [migrate_eq_upgrade (UInt32.le_trans hab hbc), migrate_eq_upgrade hab, upgrade_trans hab hbc]
  congr 1
  funext d'
  exact (migrate_eq_upgrade hbc).symm

theorem exists_migrate_iff (hr : r.Total) (hab : a ≤ b) :
    (∃ d', r.migrate d a b = .ok d') ↔ ∀ v, a ≤ v → v < b → r.Registered v := by
  rw [migrate_eq_upgrade hab]
  exact exists_upgrade_iff hr hab

/-! ### The current version -/

theorem le_noteFrom (top : UInt32) (m : Migration) :
    top ≤ noteFrom top m ∧ m.fromVersion ≤ noteFrom top m := by
  unfold noteFrom
  split_ifs with h
  · exact ⟨UInt32.le_of_lt h, UInt32.le_refl _⟩
  · exact ⟨UInt32.le_refl _, UInt32.not_lt.mp h⟩

theorem le_foldl_noteFrom (rows : List Migration) (top : UInt32) :
    top ≤ rows.foldl noteFrom top ∧ ∀ m ∈ rows, m.fromVersion ≤ rows.foldl noteFrom top := by
  induction rows generalizing top with
  | nil => exact ⟨UInt32.le_refl _, fun m hm => absurd hm List.not_mem_nil⟩
  | cons m rows ih =>
    obtain ⟨htop, hrows⟩ := ih (noteFrom top m)
    obtain ⟨hle, hm⟩ := le_noteFrom top m
    refine ⟨UInt32.le_trans hle htop, fun m' hm' => ?_⟩
    rcases List.mem_cons.mp hm' with rfl | hm'
    · exact UInt32.le_trans hm htop
    · exact hrows m' hm'

theorem foldl_noteFrom_mem (rows : List Migration) (top : UInt32) :
    rows.foldl noteFrom top = top ∨ ∃ m ∈ rows, m.fromVersion = rows.foldl noteFrom top := by
  induction rows generalizing top with
  | nil => exact .inl rfl
  | cons m rows ih =>
    rw [List.foldl_cons]
    rcases ih (noteFrom top m) with heq | ⟨m', hm', heq⟩
    · rw [heq, noteFrom]
      split_ifs
      · exact .inr ⟨m, List.mem_cons_self, rfl⟩
      · exact .inl rfl
    · exact .inr ⟨m', List.mem_cons_of_mem m hm', heq⟩

theorem registered_iff : r.Registered v ↔ ∃ m ∈ r.rows, m.fromVersion = v := by
  rw [Registered, Option.isSome_iff_exists]
  exact exists_congr fun m => CS.KeyedTable.find_eq_some_iff

theorem le_maxFrom (hv : r.Registered v) : v ≤ r.maxFrom := by
  obtain ⟨m, hm, rfl⟩ := registered_iff.mp hv
  exact (le_foldl_noteFrom r.rows 0).2 m hm

theorem maxFrom_eq_zero_or (r : MigrationRegistry) : r.maxFrom = 0 ∨ r.Registered r.maxFrom :=
  (foldl_noteFrom_mem r.rows 0).imp id registered_iff.mpr

theorem currentVersion_of_last (hv : r.Registered v) (hlast : ∀ w, r.Registered w → w ≤ v) :
    r.currentVersion = v + 1 := by
  have hle : r.maxFrom ≤ v := by
    rcases r.maxFrom_eq_zero_or with hzero | hreg
    · rw [hzero]
      exact UInt32.zero_le
    · exact hlast _ hreg
  rw [currentVersion, UInt32.le_antisymm hle (le_maxFrom hv)]

theorem currentVersion_of_none (hnone : ∀ w, ¬ r.Registered w) : r.currentVersion = 1 := by
  rcases r.maxFrom_eq_zero_or with hzero | hreg
  · rw [currentVersion, hzero, UInt32.zero_add]
  · exact absurd hreg (hnone _)

/-- A version below the current one is at most the last that has an upgrade, also when the number
after it wraps around. -/
theorem le_maxFrom_of_lt (hv : v < r.currentVersion) : v ≤ r.maxFrom := by
  rw [currentVersion, UInt32.lt_iff_toNat_lt, UInt32.toNat_add, UInt32.toNat_one] at hv
  have hmod := Nat.mod_le (r.maxFrom.toNat + 1) (2 ^ 32)
  exact UInt32.le_iff_toNat_le.mpr (by omega)

theorem GapFree.registered (h : r.GapFree) (hone : 1 ≤ v) (hv : v < r.currentVersion) :
    r.Registered v := by
  have hle := le_maxFrom_of_lt hv
  rcases r.maxFrom_eq_zero_or with hzero | hreg
  · rw [hzero] at hle
    exact absurd (UInt32.le_trans hone hle) (by decide)
  · exact h v _ hone hle hreg

/-- **Format migrations compose.** A migration succeeds exactly when an upgrade is registered from
every version it passes, and is the same as one that stops in between. Without gaps, every payload
reaches the current version, which the last upgrade produces. -/
theorem migrations_compose (r : MigrationRegistry) (d : Bytes) (hab : a ≤ b) (hbc : b ≤ c) :
    (r.Total →
      ((∃ d', r.migrate d a c = .ok d') ↔ ∀ v, a ≤ v → v < c → r.Registered v)) ∧
    r.migrate d a c = (r.migrate d a b >>= fun d' => r.migrate d' b c) ∧
    (r.Total → r.GapFree → ∀ v, 1 ≤ v → v ≤ r.currentVersion →
      ∃ d', r.migrate d v r.currentVersion = .ok d') ∧
    (∀ last, r.Registered last → (∀ w, r.Registered w → w ≤ last) →
      r.currentVersion = last + 1) ∧
    ((∀ w, ¬ r.Registered w) → r.currentVersion = 1) := by
  refine ⟨fun hr => exists_migrate_iff hr (UInt32.le_trans hab hbc), migrate_trans hab hbc,
    fun hr hgap v hone hv => ?_, fun last => currentVersion_of_last, currentVersion_of_none⟩
  refine (exists_migrate_iff hr hv).mpr fun w hw hlt => ?_
  exact hgap.registered (UInt32.le_trans hone hw) hlt

/-- Three upgrades, each of which marks the payload. -/
def threeUpgrades : MigrationRegistry where
  rows := [⟨1, fun d => .ok (d ++ [1])⟩, ⟨2, fun d => .ok (d ++ [2])⟩,
    ⟨3, fun d => .ok (d ++ [3])⟩]
  nodup := by decide

theorem threeUpgrades_registered : threeUpgrades.Registered v ↔ v = 1 ∨ v = 2 ∨ v = 3 := by
  rw [registered_iff]
  simp [threeUpgrades, eq_comm]

theorem migrations_compose_threeUpgrades :
    (∃ d', threeUpgrades.migrate [0] 1 4 = .ok d') ∧
      threeUpgrades.migrate [0] 1 4 =
        (threeUpgrades.migrate [0] 1 2 >>= fun d' => threeUpgrades.migrate d' 2 4) ∧
      threeUpgrades.currentVersion = 4 ∧
      ∃ d', threeUpgrades.migrate [0] 3 threeUpgrades.currentVersion = .ok d' := by
  have htotal : threeUpgrades.Total := by
    intro m hm d
    simp only [threeUpgrades, List.mem_cons, List.not_mem_nil, or_false] at hm
    rcases hm with rfl | rfl | rfl
    all_goals exact ⟨_, rfl⟩
  have hgap : threeUpgrades.GapFree := by
    intro v w hone hle hw
    rw [threeUpgrades_registered] at hw ⊢
    simp only [UInt32.le_iff_toNat_le, ← UInt32.toNat_inj] at hone hle hw ⊢
    rcases hw with hw | hw | hw
    all_goals
      simp only [hw] at hle
      simp at hone hle ⊢
      omega
  obtain ⟨hiff, htrans, hreach, hlast, -⟩ :=
    migrations_compose (a := 1) (b := 2) (c := 4) threeUpgrades [0] (by decide) (by decide)
  refine ⟨(hiff htotal).mpr ?_, htrans, ?_, hreach htotal hgap 3 (by decide) (by decide)⟩
  · intro v hone hlt
    rw [threeUpgrades_registered]
    simp only [UInt32.le_iff_toNat_le, UInt32.lt_iff_toNat_lt, ← UInt32.toNat_inj] at hone hlt ⊢
    simp at hone hlt ⊢
    omega
  · refine hlast 3 (by decide) fun w hw => ?_
    rcases threeUpgrades_registered.mp hw with rfl | rfl | rfl
    all_goals decide

end MigrationRegistry

end VirtualHsm
