import DreamCore.Lib.Resync
import DreamCore.Proofs.BootloaderTransfer

/-!
# Frames behind noise

A packet of either program is read by the other one behind any bytes that contain no
complete frame, unless these bytes end with an escape byte inside a packet or let the
receiver take a head directly before a tail for an empty packet.
-/

namespace DreamCore.Proofs

open DreamCore.Bootloader DreamCore.Framing

section Resync

variable {packBuf maxLength : Nat}

theorem packCode_exact : Isp.packCode.Exact where
  escape_unescape := by
    intro e b h
    simp only [Isp.packCode] at h
    split_ifs at h with h55 hAA hCC
    · cases h
      rw [h55]
      rfl
    · cases h
      rw [hAA]
      rfl
    · cases h
      rw [hCC]
      rfl
  plain := by
    intro b hhead htail htran
    simp only [Isp.packCode]
    rw [if_neg (show ¬ b = 0x55 from hhead), if_neg (show ¬ b = 0xAA from htail),
      if_neg (show ¬ b = 0xCC from htran)]
  unescape_head := by decide

/-- Both programs send the same bytes. -/
theorem deviceSendPack_frame (buf : Nat → UInt8) (n : Nat) :
    sendPack buf n = frame Isp.packCode ispCheck ((List.range n).map buf) := by
  have htran : sendTran = stuff Isp.packCode := funext sendTran_stuff
  rw [sendPack, frame, crc8L_eq, htran, List.flatMap_map]
  rfl

/-- The device returns exactly what the receiver of the library returns. -/
theorem revPackLoop_eq {r : RevPack} {mem : Memory} (input : List UInt8) :
    (revPackLoop packBuf maxLength r mem input).map (fun x => (received packBuf x.2.1 x.1, x.2.2)) =
      receiveAll Isp.packCode ispCheck maxLength (receiverOf packBuf r mem) input := by
  induction input generalizing r mem with
  | nil => rfl
  | cons dat input ih =>
      obtain ⟨hstate, hreturn⟩ := @revPackTurn_receive packBuf maxLength r mem dat
      rw [receiveAll, ← hstate, ← hreturn, revPackLoop]
      generalize revPackTurn packBuf maxLength r mem dat = turn
      by_cases hdone : turn.2 = true
      · rw [if_pos hdone, if_pos hdone]
        rfl
      · rw [if_neg hdone, if_neg hdone, ih]

/-- The packet is in the buffer of the device and `behind` is left. -/
def DeviceReads (packBuf maxLength : Nat) (mem : Memory) (input payload behind : List UInt8) : Prop :=
  ∃ mem', revPack packBuf maxLength mem input = some (payload.length, mem', behind) ∧
    received packBuf mem' payload.length = payload

theorem deviceReads_iff {mem : Memory} {input payload behind : List UInt8} :
    DeviceReads packBuf maxLength mem input payload behind ↔
      receiveAll Isp.packCode ispCheck maxLength ⟨false, false, false, 0, []⟩ input =
        some (payload, behind) := by
  have hloop := @revPackLoop_eq packBuf maxLength revPackStart mem input
  rw [show receiverOf packBuf revPackStart mem = ⟨false, false, false, 0, []⟩ from rfl] at hloop
  rw [← hloop, DeviceReads, Bootloader.revPack]
  constructor
  · rintro ⟨mem', hrev, hreceived⟩
    rw [hrev, Option.map_some, hreceived]
  · intro h
    obtain ⟨x, hrev, hx⟩ := Option.map_eq_some_iff.mp h
    rw [Prod.mk.injEq] at hx
    have hlen : x.1 = payload.length := by
      rw [← hx.1]
      exact (length_received _ _ _).symm
    refine ⟨x.2.1, ?_, ?_⟩
    · rw [hrev, ← hlen, ← hx.2]
    · rw [← hlen]
      exact hx.1

/-- For every packet and every noise without a complete frame, both directions: the packet is
read exactly if the noise is quiet. -/
theorem frame_resync_iff {n : Nat} (hlength : n ≤ maxLength) {noise : List UInt8}
    (hnoise : NoFrame Isp.packCode ispCheck maxLength noise) (buf : Nat → UInt8) (mem : Memory)
    (behind : List UInt8) :
    (Isp.revPack maxLength (noise ++ (sendPack buf n ++ behind)) =
        some ((List.range n).map buf, behind) ↔
      Quiet Isp.packCode ispCheck maxLength 0 noise) ∧
    (DeviceReads packBuf maxLength mem
        (noise ++ (Isp.sendPack ((List.range n).map buf) n ++ behind)) ((List.range n).map buf) behind ↔
      Quiet Isp.packCode ispCheck maxLength 0 noise) := by
  have hlen : ((List.range n).map buf).length = n := by rw [List.length_map, List.length_range]
  have hfit : ((List.range n).map buf).length ≤ maxLength := hlen.trans_le hlength
  have hhost : Isp.sendPack ((List.range n).map buf) n =
      frame Isp.packCode ispCheck ((List.range n).map buf) := by
    rw [← sendPack_frame, hlen]
  rw [deviceReads_iff, hhost, deviceSendPack_frame]
  exact ⟨receiveAll_resync_iff packCode_exact hnoise hfit behind,
    receiveAll_resync_iff packCode_exact hnoise hfit behind⟩

theorem noFrame_of_length {noise : List UInt8} (h : noise.length < 3) :
    NoFrame Isp.packCode ispCheck maxLength noise := by
  intro before payload behind _ heq
  have hlen := congrArg List.length heq
  have hcheck : 0 < (stuff Isp.packCode (ispCheck payload)).length := by
    rw [stuff]
    split <;> exact Nat.succ_pos _
  simp only [frame, List.length_append, List.length_cons, List.length_nil] at hlen
  omega

/-- Behind the bytes of a cut packet. -/
theorem frame_resync_cutPacket :
    Isp.revPack 4 ([0x55, 0x07] ++ (sendPack (fun _ => 0x55) 2 ++ [])) =
        some ((List.range 2).map (fun _ => 0x55), []) ∧
      DeviceReads 0 4 (fun _ => 0)
        ([0x55, 0x07] ++ (Isp.sendPack ((List.range 2).map (fun _ => 0x55)) 2 ++ []))
        ((List.range 2).map (fun _ => 0x55)) [] := by
  have hquiet : Quiet Isp.packCode ispCheck 4 0 [0x55, 0x07] := by decide
  obtain ⟨hhost, hdevice⟩ := @frame_resync_iff 0 4 2 (by decide) [0x55, 0x07]
    (noFrame_of_length (by decide)) (fun _ => 0x55) (fun _ => 0) []
  exact ⟨hhost.mpr hquiet, hdevice.mpr hquiet⟩

/-- A head behind an escape byte does not start a packet: behind `55 CC` the packet is lost to
both programs. -/
theorem escaped_head_lost :
    NoFrame Isp.packCode ispCheck 4 [0x55, 0xCC] ∧
      Isp.revPack 4 ([0x55, 0xCC] ++ (sendPack (fun _ => 1) 1 ++ [])) = none ∧
      Bootloader.revPack 0 4 (fun _ => 0) ([0x55, 0xCC] ++ (Isp.sendPack [1] 1 ++ [])) = none := by
  refine ⟨noFrame_of_length (by decide), by decide, ?_⟩
  rw [← Option.map_eq_none_iff, Bootloader.revPack, revPackLoop_eq]
  decide

end Resync

end DreamCore.Proofs
