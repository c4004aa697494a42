import DreamCore.Proofs.InFlight
import DreamCore.Proofs.Results

/-!
# Results written back

The execution units answer in any order, each instruction in flight at most once.
A result rewrites the one entry it names and leaves the registers of the entry and
the data of its instruction alone.
-/

namespace DreamCore.Proofs

open DreamCore.Model DreamCore.Renaming DreamCore.Rtl

/-! ## What the execution units promise -/

/-- The pack carries the result of the instruction of entry `e`. -/
structure ResultOf (e : Entry InFlight) (w : ExecuteWbPack) : Prop where
  valid : w.valid = e.tag.op.valid
  opUnit : w.opUnit = e.tag.op.opUnit
  rdEnable : w.rdEnable = e.tag.op.rdEnable
  needRename : w.needRename = e.tag.op.needRename
  predicted : w.predicted = e.tag.op.predicted
  checkpointId : w.checkpointId = e.tag.op.checkpointId
  rdPhy : w.rdPhy = e.item.newPhyRegId
  branch : w.opUnit = .bru → w.hasException = e.tag.op.hasException

instance (e : Entry InFlight) (w : ExecuteWbPack) : Decidable (ResultOf e w) :=
  decidable_of_iff
    (w.valid = e.tag.op.valid ∧ w.opUnit = e.tag.op.opUnit ∧ w.rdEnable = e.tag.op.rdEnable ∧
      w.needRename = e.tag.op.needRename ∧ w.predicted = e.tag.op.predicted ∧
      w.checkpointId = e.tag.op.checkpointId ∧ w.rdPhy = e.item.newPhyRegId ∧
      (w.opUnit = .bru → w.hasException = e.tag.op.hasException))
    ⟨fun ⟨h1, h2, h3, h4, h5, h6, h7, h8⟩ => ⟨h1, h2, h3, h4, h5, h6, h7, h8⟩,
      fun ⟨h1, h2, h3, h4, h5, h6, h7, h8⟩ => ⟨h1, h2, h3, h4, h5, h6, h7, h8⟩⟩

/-- Every enabled pack is the only one for an unfinished instruction in flight. -/
abbrev Completes (r : IdealRob InFlight) (packs : Nat → ExecuteWbPack) : Prop :=
  Answers ResultOf r packs

/-! ## What an entry knows of its instruction -/

structure ItemOk (e : Entry InFlight) : Prop where
  pc : e.item.pc = e.tag.op.pc
  renamed : e.item.oldPhyRegIdValid = true →
    e.tag.op.valid = true ∧ e.tag.op.needRename = true ∧ e.tag.op.rdEnable = true
  branch : e.tag.op.opUnit = .bru → e.tag.op.hasException = false
  bruOp : e.item.finish = true → e.item.bruOp = decide (e.tag.op.opUnit = .bru)
  predicted : e.item.finish = true → e.item.predicted = e.tag.op.predicted
  checkpointId : e.item.finish = true → e.item.checkpointId = e.tag.op.checkpointId
  clean : e.item.finish = true → e.item.bruOp = true → e.item.hasException = false

theorem ItemOk.finished {e : Entry InFlight} (h : ItemOk e) {w : ExecuteWbPack}
    (hresult : ResultOf e w) : ItemOk { e with item := finishedItem e.item w } where
  pc := h.pc
  renamed := h.renamed
  branch := h.branch
  bruOp := fun _ => by simp [finishedItem, hresult.opUnit]
  predicted := fun _ => hresult.predicted
  checkpointId := fun _ => hresult.checkpointId
  clean := fun _ hbru => by
    have hunit : w.opUnit = .bru := of_decide_eq_true hbru
    have hop := h.branch (hresult.opUnit ▸ hunit)
    exact (hresult.branch hunit).trans hop

theorem sameRenaming_finished (e : Entry InFlight) (w : ExecuteWbPack) :
    SameRenaming e { e with item := finishedItem e.item w } := ⟨rfl, rfl, rfl, rfl⟩

theorem branchesClean_of_items {r : IdealRob InFlight} (h : ∀ e ∈ r.entries, ItemOk e) :
    BranchesClean r := fun e he => (h e he).clean

/-! ## Decoded bundles -/

/-- What the decode FIFO delivers: decoder outputs for enabled fetch packs, in which a
misaligned slot carries the zero word and every predicted branch owns a checkpoint. -/
structure DecodedBundle (bundle : List DecodeRenamePack) : Prop where
  length_le : bundle.length ≤ renameWidth
  decoded : ∀ op ∈ bundle, op = decode op.toFetchDecodePack
  enabled : ∀ op ∈ bundle, op.enable = true
  misaligned : ∀ op ∈ bundle, op.hasException = true → op.value = 0
  checkpointIdValid : ∀ op ∈ bundle, op.checkpointIdValid = op.predicted

instance (bundle : List DecodeRenamePack) : Decidable (DecodedBundle bundle) :=
  decidable_of_iff
    (bundle.length ≤ renameWidth ∧ (∀ op ∈ bundle, op = decode op.toFetchDecodePack) ∧
      (∀ op ∈ bundle, op.enable = true) ∧
      (∀ op ∈ bundle, op.hasException = true → op.value = 0) ∧
      ∀ op ∈ bundle, op.checkpointIdValid = op.predicted)
    ⟨fun ⟨h1, h2, h3, h4, h5⟩ => ⟨h1, h2, h3, h4, h5⟩,
      fun ⟨h1, h2, h3, h4, h5⟩ => ⟨h1, h2, h3, h4, h5⟩⟩

section Bundle

variable {bundle : List DecodeRenamePack} {op : DecodeRenamePack}

theorem DecodedBundle.needRename_rd (h : DecodedBundle bundle) (hop : op ∈ bundle)
    (hneed : op.needRename = true) : op.rd ∈ archRegs := by
  rw [h.decoded op hop] at hneed ⊢
  exact mem_archRegs.2 (decode_needRename_rd hneed)

theorem DecodedBundle.rdEnable (h : DecodedBundle bundle) (hop : op ∈ bundle)
    (hneed : op.needRename = true) : op.rdEnable = true := by
  rw [h.decoded op hop] at hneed ⊢
  simp only [decode, Bool.and_eq_true] at hneed ⊢
  exact hneed.1

/-- A branch unit operation carries no fetch exception. -/
theorem DecodedBundle.branch (h : DecodedBundle bundle) (hop : op ∈ bundle)
    (hbru : op.opUnit = .bru) : op.hasException = false := by
  rw [Bool.eq_false_iff]
  intro hexc
  have hzero := decode_zero (h.misaligned op hop hexc)
  rw [← h.decoded op hop, hbru] at hzero
  exact OpUnit.noConfusion hzero.1

end Bundle

end DreamCore.Proofs
