import Vdag.Proofs.Packet.Streaming

/-! Streams that end too early. A reader that still holds bytes at the end knows that a frame is missing its last part;
after a header that came alone it holds none, and the frame is given up without a word. -/
namespace Vdag

namespace Deframer
open Vdag.Frame

variable {d e : Deframer} {left : Bytes}

theorem headerOnce (taken : d.takeHeader = .ok e) : e.takeHeader = .ok e := by
  rw [takeHeader] at taken
  split at taken
  · rename_i length inside
    cases taken
    rw [takeHeader, inside]
  · rename_i between
    split at taken
    · rename_i few
      cases taken
      rw [takeHeader, between]
      exact if_pos few
    · split at taken
      · cases taken
        rfl
      · cases taken

theorem idleHeader (idle : d.next = .ok (e, none)) : e.takeHeader = .ok e := by
  rw [next] at idle
  cases taken : d.takeHeader with
  | error fault => rw [taken] at idle; cases idle
  | ok after =>
    rw [taken] at idle
    simp only [bind, Except.bind] at idle
    split at idle
    · cases idle
      exact headerOnce taken
    · split at idle
      · cases idle
        exact headerOnce taken
      · split at idle <;> cases idle

theorem drainedHeader {packets : List Packet} (drained : d.drain = (packets, .ok e)) : e.takeHeader = .ok e := by
  fun_induction drain d generalizing packets with
  | case1 d fault failed => cases drained
  | case2 d rest idle =>
    cases drained
    exact idleHeader idle
  | case3 d rest packet more found last after ih =>
    obtain ⟨_, same⟩ := Prod.mk.inj drained
    exact ih (after.trans (Prod.ext rfl same))

theorem Holds.emptyIff (holds : e.Holds left) (taken : e.takeHeader = .ok e) :
    e.buffer.isEmpty = true ↔ left.length = 0 ∨ left.length = 4 := by
  cases holds with
  | between =>
    have few : left.length < 4 := by
      by_contra many
      rw [takeHeader] at taken
      dsimp only at taken
      rw [if_neg many] at taken
      split at taken <;> cases taken
    rw [List.isEmpty_iff, ← List.length_eq_zero_iff]
    dsimp only
    omega
  | inside short body =>
    rw [List.length_append, headerLength, List.isEmpty_iff, ← List.length_eq_zero_iff]
    dsimp only
    omega

end Deframer

namespace Frame

structure Torn (frames : List Bytes) (cut : Bytes) (whole : Nat) (left : Bytes) : Prop where
  order : cut = (frames.take whole).flatten ++ left
  part : ∃ frame, frames[whole]? = some frame ∧ left <+: frame ∧ left ≠ frame

theorem tornSomewhere {frames : List Bytes} {cut : Bytes} (front : cut <+: frames.flatten)
    (early : cut ≠ frames.flatten) : ∃ whole left, Torn frames cut whole left := by
  induction frames generalizing cut with
  | nil => exact absurd (List.prefix_nil.mp front) early
  | cons frame rest ih =>
    rw [List.flatten_cons] at front early
    by_cases inside : cut <+: frame ∧ cut ≠ frame
    · exact ⟨0, cut, rfl, frame, rfl, inside⟩
    · have reached : frame <+: cut := by
        rcases List.prefix_or_prefix_of_prefix front (List.prefix_append frame rest.flatten) with short | long
        · by_cases same : cut = frame
          · exact same ▸ List.prefix_refl cut
          · exact absurd ⟨short, same⟩ inside
        · exact long
      obtain ⟨after, rfl⟩ := reached
      obtain ⟨whole, left, torn⟩ := ih ((List.prefix_append_right_inj frame).mp front)
        (fun same => early (by rw [same]))
      refine ⟨whole + 1, left, ?_, torn.part⟩
      rw [torn.order, List.take_succ_cons, List.flatten_cons, List.append_assoc]

theorem Torn.tornArrived {packets : List Packet} {cut left : Bytes} {n : Nat}
    (torn : Torn (packets.map framed) cut n left) : Arrived packets cut (packets.take n) (packets.drop n) left where
  order := (List.take_append_drop n packets).symm
  cut := by rw [torn.order, ← List.map_take, ← List.flatMap_def]
  part p first := by
    obtain ⟨frame, found, front, short⟩ := torn.part
    rw [List.head?_drop] at first
    rw [List.getElem?_map, first] at found
    cases found
    exact Nat.lt_of_le_of_ne front.length_le (fun same => short (front.eq_of_length same))

theorem Arrived.arrivedUnique {packets whole waiting whole' waiting' : List Packet} {bytes left left' : Bytes}
    (arrived : Arrived packets bytes whole waiting left) (arrived' : Arrived packets bytes whole' waiting' left') :
    whole = whole' ∧ left = left' := by
  have count : whole.length = whole'.length := by
    have inside : ∀ {w v : List Packet}, packets = w ++ v → w.length ≤ packets.length := by
      intro w v order
      rw [order, List.length_append]
      omega
    have there := (arrived'.countWhole (inside arrived.order)).mpr
      ((arrived.countWhole (inside arrived.order)).mp (Nat.le_refl _))
    have back := (arrived.countWhole (inside arrived'.order)).mpr
      ((arrived'.countWhole (inside arrived'.order)).mp (Nat.le_refl _))
    omega
  obtain ⟨rfl, _⟩ := List.append_inj (arrived.order.symm.trans arrived'.order) count
  exact ⟨rfl, List.append_cancel_left (arrived.cut.symm.trans arrived'.cut)⟩

theorem tornRead {packets : List Packet} (short : ∀ p ∈ packets, Short p) {cut left : Bytes} {n : Nat}
    (torn : Torn (packets.map framed) cut n left) :
    readAll cut = if left.length = 0 ∨ left.length = 4 then .ok (packets.take n) else .error .unreadable := by
  have arrived := torn.tornArrived
  have front : cut <+: packets.flatMap framed := by
    obtain ⟨frame, found, front, _⟩ := torn.part
    obtain ⟨inside, rfl⟩ := List.getElem?_eq_some_iff.mp found
    rw [torn.order, List.flatMap_def]
    nth_rewrite 2 [← List.take_append_drop n (packets.map framed)]
    rw [List.flatten_append, List.prefix_append_right_inj, List.drop_eq_getElem_cons inside, List.flatten_cons]
    exact front.trans (List.prefix_append _ _)
  obtain ⟨whole, waiting, left', e, drained, holds, arrived'⟩ :=
    ((Deframer.Holds.between []).holdsFed cut).drainsWhole short front
  obtain ⟨rfl, rfl⟩ := arrived.arrivedUnique arrived'
  change (Deframer.start.feed cut).drain = _ at drained
  have empty := holds.emptyIff (Deframer.drainedHeader drained)
  rw [readAll, drained]
  exact if_congr empty rfl rfl

/- A stream that ends too early ends inside one of its frames. That is noticed, except where nothing of the frame has
come and where nothing but its header has. -/
theorem truncationTold {packets : List Packet} {frames : List Bytes}
    (encoded : List.Forall₂ (fun p frame => encode p = .ok frame) packets frames) :
    (∀ cut, cut <+: frames.flatten → cut ≠ frames.flatten → ∃ whole left, Torn frames cut whole left) ∧
      ∀ cut whole left, Torn frames cut whole left → readAll cut =
        if left.length = 0 ∨ left.length = 4 then .ok (packets.take whole) else .error .unreadable := by
  obtain ⟨short, rfl⟩ := encodedAll encoded
  exact ⟨fun _ => tornSomewhere, fun _ _ _ torn => tornRead short torn⟩

def sampleFrames : List Bytes := samplePackets.map framed

def sampleTear (size : Nat) : Bytes := (sampleFrames.take 1).flatten ++ (framed Packet.blank).take size

theorem sampleTorn (size : Nat) (small : size ≤ 5) :
    Torn sampleFrames (sampleTear size) 1 ((framed Packet.blank).take size) where
  order := rfl
  part := by
    refine ⟨framed Packet.blank, rfl, List.take_prefix _ _, fun same => ?_⟩
    have length := congrArg List.length same
    rw [List.length_take, framedLength, Packet.encodeLength] at length
    omega

theorem sampleTruncated :
    List.Forall₂ (fun p frame => encode p = .ok frame) samplePackets sampleFrames ∧
      Torn sampleFrames (sampleTear 0) 1 [] ∧ readAll (sampleTear 0) = .ok [Packet.samplePacket] ∧
      Torn sampleFrames (sampleTear 5) 1 [0, 0, 0, 56, 0] ∧ readAll (sampleTear 5) = .error .unreadable := by
  have told := (truncationTold samplePacketsSent).2
  have header : (framed Packet.blank).take 5 = [0, 0, 0, 56, 0] := by decide +kernel
  have between := sampleTorn 0 (by decide)
  have inside := sampleTorn 5 (by decide)
  rw [header] at inside
  exact ⟨samplePacketsSent, between, told _ _ _ between, inside, told _ _ _ inside⟩

theorem loneHeaderUnnoticed :
    ¬ ∀ packets frames, List.Forall₂ (fun p frame => encode p = .ok frame) packets frames →
      ∀ cut whole left, Torn frames cut whole left →
        (left = [] → readAll cut = .ok (packets.take whole)) ∧
        (left ≠ [] → ∃ failure, readAll cut = .error failure) := by
  intro noticed
  have torn := sampleTorn 4 (by decide)
  have header : (framed Packet.blank).take 4 = [0, 0, 0, 56] := by decide +kernel
  rw [header] at torn
  obtain ⟨failure, failed⟩ := (noticed _ _ samplePacketsSent _ _ _ torn).2 (by decide)
  have read := tornRead (encodedAll samplePacketsSent).1 torn
  cases read.symm.trans failed

end Frame

end Vdag
