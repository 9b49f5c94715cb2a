import Mathlib.Data.List.Forall2
import Vdag.Packet.Framing
import Vdag.Proofs.Outcome
import Vdag.Proofs.Packet.PrefixCode

/-! Streams of packets, cut anywhere. What a reader holds back is the start of a frame, whether or not it has taken the
header off, so each packet comes out with its last byte, wherever the pieces end. -/
namespace Vdag

namespace Frame

def framed (p : Packet) : Bytes := header p.encode.length ++ p.encode

def Short (p : Packet) : Prop := p.encode.length ≤ limit

theorem Short.shortFits {p : Packet} (short : Short p) : p.encode.length < UInt64.size :=
  Nat.lt_of_le_of_lt short (by decide)

theorem encodeOk {p : Packet} {frame : Bytes} : encode p = .ok frame ↔ Short p ∧ frame = framed p := by
  unfold encode Short
  dsimp only
  split
  · rename_i short
    rw [Except.ok.injEq, eq_comm (a := frame)]
    exact ⟨fun same => ⟨short, same⟩, And.right⟩
  · rename_i long
    exact ⟨nofun, fun h => absurd h.1 long⟩

theorem headerLength (length : Nat) : (header length).length = 4 := by
  rw [header, List.length_reverse, Wire.lowBytesLength]

theorem framedLength (p : Packet) : (framed p).length = 4 + p.encode.length := by
  rw [framed, List.length_append, headerLength]

theorem ofHeaderSame {length : Nat} (short : length ≤ limit) : ofHeader (header length) = length := by
  rw [ofHeader, header, List.reverse_reverse]
  exact Wire.ofLowBytesLow 4 length (Nat.lt_of_le_of_lt short (by decide))

theorem headerInj {a b : Nat} {after after' : Bytes} (short : a ≤ limit) (short' : b ≤ limit)
    (same : header a ++ after = header b ++ after') : a = b ∧ after = after' := by
  obtain ⟨headers, rest⟩ := List.append_inj same (by rw [headerLength, headerLength])
  exact ⟨by rw [← ofHeaderSame short, headers, ofHeaderSame short'], rest⟩

/- These bytes are the frames of the first packets and the start of the next one's frame. -/
structure Arrived (packets : List Packet) (bytes : Bytes) (whole waiting : List Packet) (left : Bytes) : Prop where
  order : packets = whole ++ waiting
  cut : bytes = whole.flatMap framed ++ left
  part : ∀ p ∈ waiting.head?, left.length < (framed p).length

variable {packets whole waiting : List Packet} {bytes left : Bytes}

theorem Arrived.thenMore {more later : List Packet} {piece kept : Bytes}
    (arrived : Arrived packets bytes whole waiting left) (next : Arrived waiting (left ++ piece) more later kept) :
    Arrived packets (bytes ++ piece) (whole ++ more) later kept where
  order := by rw [arrived.order, next.order, List.append_assoc]
  cut := by rw [arrived.cut, List.append_assoc, next.cut, List.flatMap_append, List.append_assoc]
  part := next.part

theorem Arrived.nothingMore (arrived : Arrived packets bytes whole waiting left) :
    Arrived packets (bytes ++ []) (whole ++ []) waiting left := by
  rwa [List.append_nil, List.append_nil]

theorem Arrived.leftBehind (arrived : Arrived packets bytes whole waiting left) (piece : Bytes)
    (front : bytes ++ piece <+: packets.flatMap framed) : left ++ piece <+: waiting.flatMap framed := by
  rw [arrived.cut, arrived.order, List.flatMap_append, List.append_assoc] at front
  exact (List.prefix_append_right_inj _).mp front

theorem Arrived.countWhole (arrived : Arrived packets bytes whole waiting left) {n : Nat}
    (inside : n ≤ packets.length) : n ≤ whole.length ↔ ((packets.take n).flatMap framed).length ≤ bytes.length := by
  rw [arrived.order, List.length_append] at inside
  rw [arrived.order, arrived.cut, List.length_append]
  constructor
  · intro early
    have parts : whole.flatMap framed = (whole.take n).flatMap framed ++ (whole.drop n).flatMap framed := by
      rw [← List.flatMap_append, List.take_append_drop]
    rw [List.take_append_of_le_length early, parts, List.length_append]
    omega
  · intro covered
    by_contra late
    obtain ⟨further, rfl⟩ : ∃ further, n = whole.length + (further + 1) := ⟨n - whole.length - 1, by omega⟩
    cases waiting with
    | nil => rw [List.length_nil] at inside; omega
    | cons p rest =>
      have part := arrived.part p rfl
      rw [List.take_length_add_append, List.take_succ_cons, List.flatMap_append, List.flatMap_cons, List.length_append,
        List.length_append] at covered
      omega

theorem Arrived.finishedWhole (arrived : Arrived packets (packets.flatMap framed) whole waiting left) :
    whole = packets ∧ left = [] := by
  obtain ⟨rfl, cut, part⟩ := arrived
  rw [List.flatMap_append, List.append_cancel_left_eq] at cut
  cases waiting with
  | nil => exact ⟨(List.append_nil whole).symm, cut.symm⟩
  | cons p rest =>
    have short := part p rfl
    rw [← cut, List.flatMap_cons, List.length_append] at short
    omega

end Frame

namespace Deframer
open Vdag.Frame

inductive Holds : Deframer → Bytes → Prop where
  | between (bytes : Bytes) : Holds ⟨none, bytes⟩ bytes
  | inside {length : Nat} (short : length ≤ limit) (body : Bytes) : Holds ⟨some length, body⟩ (header length ++ body)

variable {d : Deframer} {bytes : Bytes}

theorem Holds.holdsFed (holds : d.Holds bytes) (piece : Bytes) : (d.feed piece).Holds (bytes ++ piece) := by
  cases holds with
  | between => exact .between _
  | inside short body => rw [List.append_assoc]; exact .inside short _

theorem Holds.takesHeader {length : Nat} {body : Bytes} (holds : d.Holds (Frame.header length ++ body))
    (short : length ≤ limit) : d.takeHeader = .ok ⟨some length, body⟩ := by
  generalize same : Frame.header length ++ body = bytes at holds
  cases holds with
  | between =>
    subst same
    have four := headerLength length
    have front : (Frame.header length ++ body).take 4 = Frame.header length := by rw [← four, List.take_left]
    have back : (Frame.header length ++ body).drop 4 = body := by rw [← four, List.drop_left]
    rw [takeHeader]
    dsimp only
    rw [front, back, ofHeaderSame short, if_neg (by rw [List.length_append]; omega), if_pos short]
  | inside short' body' =>
    obtain ⟨rfl, rfl⟩ := headerInj short short' same
    rfl

theorem Holds.waitsForHeader (holds : d.Holds bytes) (few : bytes.length < 4) : d.next = .ok (d, none) := by
  cases holds with
  | between =>
    rw [next, takeHeader]
    dsimp only
    rw [if_pos few]
    rfl
  | inside short body =>
    rw [List.length_append, headerLength] at few
    omega

theorem nextInside {length : Nat} {body : Bytes} (taken : d.takeHeader = .ok ⟨some length, body⟩) :
    d.next = if body.length < length then .ok (⟨some length, body⟩, none)
      else match Packet.decode (body.take length) with
        | .ok packet => .ok (⟨none, body.drop length⟩, some packet)
        | .error _ => .error .badPacket := by
  rw [next, taken]
  rfl

theorem Holds.yieldsPacket {p : Packet} {rest : Bytes} (holds : d.Holds (framed p ++ rest)) (short : Short p) :
    d.next = .ok (⟨none, rest⟩, some p) := by
  rw [framed, List.append_assoc] at holds
  rw [nextInside (holds.takesHeader short), if_neg (by rw [List.length_append]; omega), List.take_left, List.drop_left,
    Packet.decodeEncode short.shortFits]

theorem Holds.lacksBody {p : Packet} (holds : d.Holds bytes) (short : Short p) (front : bytes <+: framed p)
    (part : bytes.length < (framed p).length) : ∃ e, d.next = .ok (e, none) ∧ e.Holds bytes := by
  by_cases few : bytes.length < 4
  · exact ⟨d, holds.waitsForHeader few, holds⟩
  obtain ⟨missing, whole⟩ := front
  obtain ⟨body, rfl⟩ : ∃ body, bytes = Frame.header p.encode.length ++ body := by
    refine ⟨bytes.drop 4, ?_⟩
    have front := congrArg (List.take 4) whole
    rw [List.take_append_of_le_length (Nat.not_lt.mp few), framed, ← headerLength p.encode.length, List.take_left]
      at front
    rw [← front, headerLength, List.take_append_drop]
  refine ⟨⟨some p.encode.length, body⟩, ?_, .inside short body⟩
  rw [framedLength, List.length_append, headerLength] at part
  rw [nextInside (holds.takesHeader short), if_pos (by omega)]

theorem drainNone {e : Deframer} (idle : d.next = .ok (e, none)) : d.drain = ([], .ok e) := by
  rw [drain]
  split
  · rename_i failed
    cases idle.symm.trans failed
  · rename_i other
    cases idle.symm.trans other
    rfl
  · rename_i other
    cases idle.symm.trans other

theorem drainSome {e : Deframer} {p : Packet} (more : d.next = .ok (e, some p)) :
    d.drain = (p :: e.drain.1, e.drain.2) := by
  rw [drain]
  split
  · rename_i failed
    cases more.symm.trans failed
  · rename_i other
    cases more.symm.trans other
  · rename_i other
    cases more.symm.trans other
    rfl

theorem Holds.drainsWhole {packets : List Packet} (holds : d.Holds bytes) (short : ∀ p ∈ packets, Short p)
    (front : bytes <+: packets.flatMap framed) :
    ∃ whole waiting left e, d.drain = (whole, .ok e) ∧ e.Holds left ∧ Arrived packets bytes whole waiting left := by
  induction packets generalizing d bytes with
  | nil =>
    cases List.prefix_nil.mp front
    exact ⟨[], [], [], d, drainNone (holds.waitsForHeader (by decide)), holds, rfl, rfl, nofun⟩
  | cons p rest ih =>
    obtain ⟨own, short⟩ := List.forall_mem_cons.mp short
    rw [List.flatMap_cons] at front
    by_cases ended : (framed p).length ≤ bytes.length
    · obtain ⟨after, rfl⟩ := List.prefix_of_prefix_length_le (List.prefix_append _ _) front ended
      obtain ⟨whole, waiting, left, e, drained, holds', arrived⟩ :=
        ih (.between after) short ((List.prefix_append_right_inj _).mp front)
      refine ⟨p :: whole, waiting, left, e, ?_, holds', ?_, ?_, arrived.part⟩
      · rw [drainSome (holds.yieldsPacket own), drained]
      · rw [arrived.order, List.cons_append]
      · rw [arrived.cut, List.flatMap_cons, List.append_assoc]
    · have part := Nat.lt_of_not_le ended
      have start := List.prefix_of_prefix_length_le front (List.prefix_append _ _) (Nat.le_of_lt part)
      obtain ⟨e, idle, holds'⟩ := holds.lacksBody own start part
      exact ⟨[], p :: rest, bytes, e, drainNone idle, holds', rfl, rfl, fun q first => Option.some.inj first ▸ part⟩

theorem Holds.feedsAll {packets whole waiting : List Packet} {received left : Bytes} {pieces : List Bytes}
    (holds : d.Holds left) (arrived : Arrived packets received whole waiting left) (short : ∀ p ∈ packets, Short p)
    (front : received ++ pieces.flatten <+: packets.flatMap framed) :
    (d.feedAll pieces).map Prod.snd = pieces.map (fun _ => none) ∧
      ∀ k, ∃ waiting' left', Arrived packets (received ++ (pieces.take k).flatten)
        (whole ++ ((d.feedAll pieces).take k).flatMap Prod.fst) waiting' left' := by
  -- On the pieces still to come, with the packets that wait and the bytes left over after those already fed.
  induction pieces generalizing d received whole waiting left with
  | nil =>
    refine ⟨rfl, fun k => ⟨waiting, left, ?_⟩⟩
    rw [feedAll, List.take_nil, List.take_nil]
    exact arrived.nothingMore
  | cons piece rest ih =>
    rw [List.flatten_cons, ← List.append_assoc] at front
    have reaches := arrived.leftBehind piece ((List.prefix_append _ _).trans front)
    have short' : ∀ p ∈ waiting, Short p := fun p member =>
      short p (arrived.order ▸ List.mem_append_right whole member)
    obtain ⟨more, later, kept, e, drained, holds', next⟩ := (holds.holdsFed piece).drainsWhole short' reaches
    obtain ⟨steady, each⟩ := ih holds' (arrived.thenMore next) front
    have step : d.feedAll (piece :: rest) = (more, none) :: e.feedAll rest := by rw [feedAll, drained]
    rw [step]
    refine ⟨by rw [List.map_cons, List.map_cons, steady], fun k => ?_⟩
    cases k with
    | zero => exact ⟨waiting, left, arrived.nothingMore⟩
    | succ k =>
      obtain ⟨waiting', left', so⟩ := each k
      refine ⟨waiting', left', ?_⟩
      rw [List.take_succ_cons, List.take_succ_cons, List.flatten_cons, List.flatMap_cons, ← List.append_assoc,
        ← List.append_assoc]
      exact so

theorem Holds.emptyBuffer (holds : d.Holds []) : d.buffer = [] := by
  generalize same : ([] : Bytes) = bytes at holds
  cases holds with
  | between => rfl
  | inside short body =>
    have length := congrArg List.length same
    rw [List.length_append, headerLength, List.length_nil] at length
    omega

end Deframer

namespace Frame

theorem Arrived.nothingArrived (packets : List Packet) : Arrived packets [] [] packets [] where
  order := rfl
  cut := rfl
  part := fun p _ => by rw [framedLength, List.length_nil]; omega

theorem encodedAll {packets : List Packet} {frames : List Bytes}
    (encoded : List.Forall₂ (fun p frame => encode p = .ok frame) packets frames) :
    (∀ p ∈ packets, Short p) ∧ frames = packets.map framed := by
  induction encoded with
  | nil => exact ⟨nofun, rfl⟩
  | cons first _ ih =>
    obtain ⟨short, rfl⟩ := encodeOk.mp first
    exact ⟨List.forall_mem_cons.mpr ⟨short, ih.1⟩, by rw [List.map_cons, ← ih.2]⟩

theorem writeAllFramed {packets : List Packet} (short : ∀ p ∈ packets, Short p) :
    writeAll packets = .ok (packets.flatMap framed) := by
  rw [writeAll, Outcome.bindOk]
  refine ⟨packets.map framed, Outcome.mapMOf ?_, rfl⟩
  rw [List.forall₂_map_right_iff]
  exact List.forall₂_same.mpr (fun p member => by rw [encodeOk.mpr ⟨short p member, rfl⟩])

theorem readBack {packets : List Packet} (short : ∀ p ∈ packets, Short p) :
    readAll (packets.flatMap framed) = .ok packets := by
  obtain ⟨whole, waiting, left, e, drained, holds, arrived⟩ :=
    (Deframer.Holds.between []).holdsFed (packets.flatMap framed) |>.drainsWhole short (List.prefix_refl _)
  obtain ⟨rfl, rfl⟩ := arrived.finishedWhole
  change (Deframer.start.feed _).drain = _ at drained
  rw [readAll, drained]
  dsimp only
  rw [holds.emptyBuffer]
  rfl

/- What a reader takes from a stream, piece by piece: no fault, every packet in order, and each with the piece that
brings the last byte of its frame. -/
structure Streamed (packets : List Packet) (frames pieces : List Bytes) : Prop where
  steady : (Deframer.start.feedAll pieces).map Prod.snd = pieces.map (fun _ => none)
  complete : (Deframer.start.feedAll pieces).flatMap Prod.fst = packets
  ordered : ∀ k, ((Deframer.start.feedAll pieces).take k).flatMap Prod.fst <+: packets
  prompt : ∀ k n, n ≤ packets.length →
    (n ≤ (((Deframer.start.feedAll pieces).take k).flatMap Prod.fst).length ↔
      (frames.take n).flatten.length ≤ (pieces.take k).flatten.length)

theorem streamedPieces {packets : List Packet} (short : ∀ p ∈ packets, Short p) {pieces : List Bytes}
    (same : pieces.flatten = packets.flatMap framed) : Streamed packets (packets.map framed) pieces := by
  have front : [] ++ pieces.flatten <+: packets.flatMap framed := same ▸ List.prefix_refl _
  obtain ⟨steady, each⟩ := (Deframer.Holds.between []).feedsAll (.nothingArrived packets) short front
  refine ⟨steady, ?_, fun k => ?_, fun k n inside => ?_⟩
  · obtain ⟨waiting, left, last⟩ := each pieces.length
    have steps := congrArg List.length steady
    rw [List.length_map, List.length_map] at steps
    rw [List.take_length, same, ← steps, List.take_length] at last
    exact last.finishedWhole.1
  · obtain ⟨waiting, left, arrived⟩ := each k
    exact ⟨waiting, arrived.order.symm⟩
  · obtain ⟨waiting, left, arrived⟩ := each k
    rw [← List.map_take, ← List.flatMap_def]
    exact arrived.countWhole inside

theorem framesCutAnywhere : (∀ p : Packet, (∃ frame, encode p = .ok frame) ↔ p.encode.length ≤ 8388608) ∧
    ∀ packets frames, List.Forall₂ (fun p frame => encode p = .ok frame) packets frames →
      (∀ pieces : List Bytes, pieces.flatten = frames.flatten → Streamed packets frames pieces) ∧
        writeAll packets = .ok frames.flatten ∧ readAll frames.flatten = .ok packets := by
  refine ⟨fun p => ⟨fun sent => ?_, fun short => ⟨framed p, encodeOk.mpr ⟨short, rfl⟩⟩⟩, fun packets frames encoded =>
    ?_⟩
  · obtain ⟨frame, encoded⟩ := sent
    exact (encodeOk.mp encoded).1
  · obtain ⟨short, rfl⟩ := encodedAll encoded
    rw [← List.flatMap_def]
    exact ⟨fun _ same => streamedPieces short same, writeAllFramed short, readBack short⟩

def samplePackets : List Packet := [Packet.samplePacket, Packet.blank]

def samplePieces : List Bytes :=
  let bytes := (samplePackets.map framed).flatten
  [bytes.take 2, [], (bytes.drop 2).take 110, bytes.drop 112]

theorem samplePacketsSent :
    List.Forall₂ (fun p frame => encode p = .ok frame) samplePackets (samplePackets.map framed) :=
  .cons (encodeOk.mpr ⟨by unfold Short; decide +kernel, rfl⟩)
    (.cons (encodeOk.mpr ⟨by unfold Short; decide +kernel, rfl⟩) .nil)

theorem samplePacketsStreamed :
    List.Forall₂ (fun p frame => encode p = .ok frame) samplePackets (samplePackets.map framed) ∧
      samplePieces.flatten = (samplePackets.map framed).flatten ∧
      (Deframer.start.feedAll samplePieces).flatMap Prod.fst = samplePackets ∧
      ((Deframer.start.feedAll samplePieces).take 2).flatMap Prod.fst = [] ∧
      1 ≤ (((Deframer.start.feedAll samplePieces).take 3).flatMap Prod.fst).length := by
  have same : samplePieces.flatten = (samplePackets.map framed).flatten := by decide +kernel
  have read := (framesCutAnywhere.2 _ _ samplePacketsSent).1 samplePieces same
  have waits := (read.prompt 2 1 (by decide)).not.mpr (by decide +kernel)
  refine ⟨samplePacketsSent, same, read.complete, List.length_eq_zero_iff.mp (by omega), ?_⟩
  exact (read.prompt 3 1 (by decide)).mpr (by decide +kernel)

end Frame

end Vdag
