import DreamCore.Cpp.Bus
import Mathlib.Data.Nat.Bitwise

/-!
# Soundness of the bus address map

A mapping stands for the addresses from its base to the end of its size, counted without
wrapping.  While no mapping reaches the top of the address space the 32-bit tests decide
exactly these ranges.  A mapping that reaches `2 ^ 32` has an end that wraps: nothing is
routed to it and nothing is found to overlap it.
-/

namespace DreamCore.Proofs

open DreamCore.Cpp

section AddressMap

variable {Slave : Type} {b b' : Bus Slave} {m k : SlaveInfo Slave} {addr : BitVec 32}

/-- The address lies in the mapped range. -/
def Mapped (m : SlaveInfo Slave) (addr : BitVec 32) : Prop :=
  m.base.toNat ≤ addr.toNat ∧ addr.toNat < m.base.toNat + m.size.toNat

/-- The range ends below the top of the address space. -/
def EndsBelowTop (m : SlaveInfo Slave) : Prop := m.base.toNat + m.size.toNat < 2 ^ 32

instance (m : SlaveInfo Slave) (addr : BitVec 32) : Decidable (Mapped m addr) :=
  inferInstanceAs (Decidable (_ ∧ _))

instance (m : SlaveInfo Slave) : Decidable (EndsBelowTop m) :=
  inferInstanceAs (Decidable (_ < _))

/-- No two ranges share an address, an address of a range goes to its slave with its offset,
and every other address goes to none. -/
structure AddressMapSound (b : Bus Slave) : Prop where
  disjoint : b.slaveInfoList.Pairwise fun m k => ∀ addr, ¬ (Mapped m addr ∧ Mapped k addr)
  routed : ∀ (i : Nat) m addr, b.slaveInfoList[i]? = some m → Mapped m addr →
    b.findSlaveInfo addr = i ∧ b.getSlaveObj addr = some m.slave
      ∧ (b.convertToSlaveAddr addr).toNat = addr.toNat - m.base.toNat
  unrouted : ∀ addr, (∀ m ∈ b.slaveInfoList, ¬ Mapped m addr) →
    b.findSlaveInfo addr = -1 ∧ b.getSlaveObj addr = none

/-! ## The 32-bit tests -/

theorem end_toNat (hend : EndsBelowTop m) :
    (m.base + m.size).toNat = m.base.toNat + m.size.toNat := by
  rw [BitVec.toNat_add, Nat.mod_eq_of_lt hend]

theorem matchesAddr_iff (hend : EndsBelowTop m) : m.matchesAddr addr = true ↔ Mapped m addr := by
  simp only [SlaveInfo.matchesAddr, Bool.and_eq_true, decide_eq_true_eq, ge_iff_le, BitVec.le_def,
    BitVec.lt_def, end_toNat hend, Mapped]

/-- A range that reaches the top is matched by no address. -/
theorem matchesAddr_wrapped (hend : ¬ EndsBelowTop m) : m.matchesAddr addr = false := by
  have hbase : m.base.toNat < 2 ^ 32 := m.base.isLt
  have hsize : m.size.toNat < 2 ^ 32 := m.size.isLt
  have haddr : addr.toNat < 2 ^ 32 := addr.isLt
  unfold EndsBelowTop at hend
  have hwrap : (m.base + m.size).toNat = m.base.toNat + m.size.toNat - 2 ^ 32 := by
    rw [BitVec.toNat_add]
    omega
  apply Bool.eq_false_iff.mpr
  intro hmatch
  simp only [SlaveInfo.matchesAddr, Bool.and_eq_true, decide_eq_true_eq, ge_iff_le,
    BitVec.le_def, BitVec.lt_def, hwrap] at hmatch
  omega

/-- A call that passes the test meets no earlier range. -/
theorem disjoint_of_accepted (hk : EndsBelowTop k) (hm : EndsBelowTop m)
    (hpass : b.checkAddrOverride k.base k.size = false) (hmem : m ∈ b.slaveInfoList) :
    ¬ (Mapped m addr ∧ Mapped k addr) := by
  rintro ⟨⟨hmLow, hmHigh⟩, hkLow, hkHigh⟩
  have hnone := List.any_eq_false.mp hpass m hmem
  simp only [Bool.or_eq_true, Bool.and_eq_true, decide_eq_true_eq, ge_iff_le, gt_iff_lt,
    BitVec.le_def, BitVec.lt_def, end_toNat hm, end_toNat hk] at hnone
  omega

/-! ## Sequences of calls -/

theorem map_pairwise (hb : ∀ k ∈ b.slaveInfoList, EndsBelowTop k) (hm : EndsBelowTop m)
    (hpair : b.slaveInfoList.Pairwise fun m k => ∀ addr, ¬ (Mapped m addr ∧ Mapped k addr))
    (hmap : b.map m.base m.size m.slave = some b') :
    b'.slaveInfoList.Pairwise fun m k => ∀ addr, ¬ (Mapped m addr ∧ Mapped k addr) := by
  unfold Bus.map at hmap
  split at hmap
  · cases hmap
  · rename_i hpass
    rw [Option.some.injEq] at hmap
    rw [← hmap, List.pairwise_append]
    refine ⟨hpair, List.pairwise_singleton _ _, ?_⟩
    intro k hk l hl addr
    rw [List.mem_singleton] at hl
    subst hl
    exact disjoint_of_accepted hm (hb k hk) (Bool.eq_false_iff.mpr hpass) hk

theorem mapAll_pairwise {ms : List (SlaveInfo Slave)} :
    ∀ {b : Bus Slave}, (∀ k ∈ b.slaveInfoList ++ ms, EndsBelowTop k) →
      (b.slaveInfoList.Pairwise fun m k => ∀ addr, ¬ (Mapped m addr ∧ Mapped k addr)) →
      b.mapAll ms = some b' →
      b'.slaveInfoList.Pairwise fun m k => ∀ addr, ¬ (Mapped m addr ∧ Mapped k addr) := by
  induction ms with
  | nil =>
      intro b _ hpair h
      simp only [Bus.mapAll, Option.some.injEq] at h
      rwa [← h]
  | cons m ms ih =>
      intro b hend hpair h
      obtain ⟨b₁, hmap, hrest⟩ := Option.bind_eq_some_iff.mp h
      have hlist : b₁.slaveInfoList = b.slaveInfoList ++ [m] :=
        Bus.mapAll_list (by rw [Bus.mapAll, hmap]; rfl : b.mapAll [m] = some b₁)
      have hpair₁ := map_pairwise (fun k hk => hend k (List.mem_append_left _ hk))
        (hend m (List.mem_append_right _ List.mem_cons_self)) hpair hmap
      refine ih ?_ hpair₁ hrest
      rwa [hlist, List.append_assoc, List.singleton_append]

/-- The first matching mapping is the one that holds the address. -/
theorem findIdx_of_mapped (hend : ∀ k ∈ b.slaveInfoList, EndsBelowTop k)
    (hpair : b.slaveInfoList.Pairwise fun m k => ∀ addr, ¬ (Mapped m addr ∧ Mapped k addr))
    {i : Nat} (hget : b.slaveInfoList[i]? = some m) (hm : Mapped m addr) :
    b.slaveInfoList.findIdx? (·.matchesAddr addr) = some i := by
  obtain ⟨hi, hm'⟩ := List.getElem?_eq_some_iff.mp hget
  rw [List.findIdx?_eq_some_iff_getElem]
  refine ⟨hi, ?_, ?_⟩
  · rw [hm']
    exact (matchesAddr_iff (hend m (hm' ▸ List.getElem_mem hi))).mpr hm
  · intro j hji hmatch
    have hj := (matchesAddr_iff (hend _ (List.getElem_mem (Nat.lt_trans hji hi)))).mp hmatch
    refine List.pairwise_iff_getElem.mp hpair j i (Nat.lt_trans hji hi) hi hji addr ⟨hj, ?_⟩
    rwa [hm']

/-- Every accepted sequence of calls gives a sound address map exactly when every range
ends below the top of the address space. -/
theorem address_map_sound_iff {ms : List (SlaveInfo Slave)}
    (haccepted : Bus.empty.mapAll ms = some b) :
    AddressMapSound b ↔ ∀ m ∈ ms, EndsBelowTop m := by
  have hlist : b.slaveInfoList = ms := Bus.mapAll_list haccepted
  constructor
  · intro hsound m hmem
    by_contra hend
    obtain ⟨i, hget⟩ := List.mem_iff_getElem?.mp (hlist ▸ hmem)
    have hbase : Mapped m m.base := by
      have hlt : m.base.toNat < 2 ^ 32 := m.base.isLt
      unfold EndsBelowTop at hend
      exact ⟨Nat.le_refl _, by omega⟩
    have hfound := (hsound.routed i m m.base hget hbase).1
    -- the address must then match some mapping at `i`, and the mapping at `i` is `m`
    cases hfind : b.slaveInfoList.findIdx? (·.matchesAddr m.base) with
    | none =>
        rw [(Bus.lookup_of_findIdx_none hfind).1] at hfound
        omega
    | some j =>
        obtain ⟨hj, hmatch, -⟩ := List.findIdx?_eq_some_iff_getElem.mp hfind
        have hij : j = i := by
          rw [(Bus.lookup_of_findIdx hfind (List.getElem?_eq_getElem hj)).1] at hfound
          omega
        subst hij
        have hm : b.slaveInfoList[j] = m := (List.getElem?_eq_some_iff.mp hget).2
        rw [hm, matchesAddr_wrapped hend] at hmatch
        cases hmatch
  · intro hend
    have hends : ∀ k ∈ b.slaveInfoList, EndsBelowTop k := hlist ▸ hend
    have hpair : b.slaveInfoList.Pairwise fun m k => ∀ addr, ¬ (Mapped m addr ∧ Mapped k addr) :=
      mapAll_pairwise (b := Bus.empty) hend List.Pairwise.nil haccepted
    refine ⟨hpair, ?_, ?_⟩
    · intro i m addr hget hm
      obtain ⟨hid, hobj, hoff⟩ := Bus.lookup_of_findIdx (findIdx_of_mapped hends hpair hget hm) hget
      refine ⟨hid, hobj, ?_⟩
      rw [hoff, BitVec.toNat_sub_of_le (BitVec.le_def.mpr hm.1)]
    · intro addr hnone
      refine Bus.lookup_of_findIdx_none (List.findIdx?_eq_none_iff.mpr ?_)
      intro m hmem
      rw [Bool.eq_false_iff, Ne, matchesAddr_iff (hends m hmem)]
      exact hnone m hmem

/-- The simulator's own memory and interrupt controller. -/
theorem address_map_sound_soc :
    ∃ b : Bus Nat, Bus.empty.mapAll [⟨0x80000000, 1048576, 0⟩, ⟨0x20000000, 0x10000, 1⟩] = some b
      ∧ AddressMapSound b := by
  have hend : ∀ m ∈ ([⟨0x80000000, 1048576, 0⟩, ⟨0x20000000, 0x10000, 1⟩] :
      List (SlaveInfo Nat)), EndsBelowTop m := by decide
  exact ⟨_, rfl, (address_map_sound_iff rfl).mpr hend⟩

/-- Two mappings of the last page: both calls are accepted, and no address of the page is
routed. -/
theorem last_page_unrouted :
    ∃ b : Bus Nat, Bus.empty.mapAll [⟨0xfffff000, 0x1000, 0⟩, ⟨0xfffff000, 0x1000, 1⟩] = some b
      ∧ b.findSlaveInfo 0xfffff000 = -1 ∧ ¬ AddressMapSound b := by
  refine ⟨_, rfl, by decide, ?_⟩
  intro hsound
  have hfound := (hsound.routed 0 ⟨0xfffff000, 0x1000, 0⟩ 0xfffff000 rfl (by decide)).1
  revert hfound
  decide

end AddressMap

end DreamCore.Proofs
