import Mathlib.Data.List.Basic

/-!
# The address map of the simulator's bus (`bus.h`)

The bus keeps its mappings in the order of the `map` calls and takes the first one that
holds an address.  Bases, sizes and their sums are 32-bit words, so a sum can wrap.  A
slave is known by its pointer only.
-/

namespace DreamCore.Cpp

structure SlaveInfo (Slave : Type) where
  base : BitVec 32
  size : BitVec 32
  slave : Slave

structure Bus (Slave : Type) where
  slaveInfoList : List (SlaveInfo Slave)

section Bus

variable {Slave : Type}

def Bus.empty : Bus Slave := ⟨[]⟩

def Bus.checkAddrOverride (b : Bus Slave) (base size : BitVec 32) : Bool :=
  b.slaveInfoList.any fun m =>
    (decide (base ≥ m.base) && decide (base < m.base + m.size))
      || (decide (base < m.base) && decide (base + size > m.base))

def SlaveInfo.matchesAddr (m : SlaveInfo Slave) (addr : BitVec 32) : Bool :=
  decide (addr ≥ m.base) && decide (addr < m.base + m.size)

def Bus.findSlaveInfo (b : Bus Slave) (addr : BitVec 32) : Int :=
  match b.slaveInfoList.findIdx? (·.matchesAddr addr) with
  | some i => i
  | none => -1

/-- The mapping the two look-ups below read once `find_slave_info` returned an index. -/
def Bus.slaveInfo (b : Bus Slave) (slaveId : Int) : Option (SlaveInfo Slave) :=
  if slaveId ≥ 0 then b.slaveInfoList[slaveId.toNat]? else none

def Bus.getSlaveObj (b : Bus Slave) (addr : BitVec 32) : Option Slave :=
  (b.slaveInfo (b.findSlaveInfo addr)).map (·.slave)

def Bus.convertToSlaveAddr (b : Bus Slave) (addr : BitVec 32) : BitVec 32 :=
  match b.slaveInfo (b.findSlaveInfo addr) with
  | some m => addr - m.base
  | none => addr

/-- `none` is the failed assertion. -/
def Bus.map (b : Bus Slave) (base size : BitVec 32) (slave : Slave) : Option (Bus Slave) :=
  if b.checkAddrOverride base size then none
  else some ⟨b.slaveInfoList ++ [⟨base, size, slave⟩]⟩

/-- A sequence of `map` calls, all of which must be accepted. -/
def Bus.mapAll (b : Bus Slave) : List (SlaveInfo Slave) → Option (Bus Slave)
  | [] => some b
  | m :: ms => (b.map m.base m.size m.slave).bind (·.mapAll ms)

/-! ## Looking an address up -/

variable {b : Bus Slave} {addr : BitVec 32} {i : Nat} {m : SlaveInfo Slave}

/-- The first mapping that matches decides index, object and offset. -/
theorem Bus.lookup_of_findIdx (hfind : b.slaveInfoList.findIdx? (·.matchesAddr addr) = some i)
    (hget : b.slaveInfoList[i]? = some m) :
    b.findSlaveInfo addr = i ∧ b.getSlaveObj addr = some m.slave
      ∧ b.convertToSlaveAddr addr = addr - m.base := by
  have hid : b.findSlaveInfo addr = i := by simp only [findSlaveInfo, hfind]
  have hinfo : b.slaveInfo (b.findSlaveInfo addr) = some m := by
    rw [hid, slaveInfo, if_pos (Int.natCast_nonneg i), Int.toNat_natCast, hget]
  refine ⟨hid, ?_, ?_⟩
  · rw [getSlaveObj, hinfo, Option.map_some]
  · rw [convertToSlaveAddr, hinfo]

theorem Bus.lookup_of_findIdx_none
    (hfind : b.slaveInfoList.findIdx? (·.matchesAddr addr) = none) :
    b.findSlaveInfo addr = -1 ∧ b.getSlaveObj addr = none := by
  have hid : b.findSlaveInfo addr = -1 := by simp only [findSlaveInfo, hfind]
  refine ⟨hid, ?_⟩
  rw [getSlaveObj, hid, slaveInfo, if_neg (by decide), Option.map_none]

/-- The accepted calls are the mappings, in their order. -/
theorem Bus.mapAll_list {ms : List (SlaveInfo Slave)} :
    ∀ {b b' : Bus Slave}, b.mapAll ms = some b' →
      b'.slaveInfoList = b.slaveInfoList ++ ms := by
  induction ms with
  | nil =>
      intro b b' h
      simp only [mapAll, Option.some.injEq] at h
      rw [← h, List.append_nil]
  | cons m ms ih =>
      intro b b' h
      obtain ⟨b₁, hmap, hrest⟩ := Option.bind_eq_some_iff.mp h
      unfold Bus.map at hmap
      split at hmap
      · cases hmap
      · rw [Option.some.injEq] at hmap
        rw [ih hrest, ← hmap, List.append_assoc, List.singleton_append]

end Bus

end DreamCore.Cpp
