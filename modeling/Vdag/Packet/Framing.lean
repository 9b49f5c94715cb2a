import Vdag.Packet.Wire

/-! Packets in a stream of bytes: each behind its length in 4 bytes, the highest first. A reader takes the
stream in pieces of any size. -/
namespace Vdag

inductive FrameFault where
  | tooLong
  | badPacket
  deriving DecidableEq, Repr

namespace Frame

def limit : Nat := 8 * 1024 * 1024

def header (length : Nat) : Bytes := (Wire.lowBytes 4 length).reverse

def ofHeader (bytes : Bytes) : Nat := Wire.ofLowBytes bytes.reverse

def encode (packet : Packet) : Except FrameFault Bytes :=
  let body := packet.encode
  let length := body.length
  if length ≤ limit then .ok (header length ++ body) else .error .tooLong

end Frame

/-- What has arrived and is not yet a packet. A header is taken off as soon as it is complete, and leaves the
length of the body to wait for. -/
structure Deframer where
  awaited : Option Nat
  buffer : Bytes
  deriving DecidableEq, Repr

namespace Deframer

def start : Deframer := ⟨none, []⟩

def feed (d : Deframer) (bytes : Bytes) : Deframer := { d with buffer := d.buffer ++ bytes }

def takeHeader (d : Deframer) : Except FrameFault Deframer :=
  match d.awaited with
  | some _ => .ok d
  | none =>
      if d.buffer.length < 4 then .ok d
      else if Frame.ofHeader (d.buffer.take 4) ≤ Frame.limit then
        .ok ⟨some (Frame.ofHeader (d.buffer.take 4)), d.buffer.drop 4⟩
      else .error .tooLong

def next (d : Deframer) : Except FrameFault (Deframer × Option Packet) := do
  let d ← d.takeHeader
  match d.awaited with
  | none => .ok (d, none)
  | some length =>
      if d.buffer.length < length then .ok (d, none)
      else match Packet.decode (d.buffer.take length) with
        | .ok packet => .ok (⟨none, d.buffer.drop length⟩, some packet)
        | .error _ => .error .badPacket

def size (d : Deframer) : Nat := d.buffer.length + if d.awaited.isSome then 1 else 0

theorem sizeTakeHeader {d e : Deframer} (h : d.takeHeader = .ok e) : e.size ≤ d.size := by
  unfold takeHeader at h
  split at h
  · cases h; exact Nat.le_refl _
  · rename_i idle
    split at h
    · cases h; exact Nat.le_refl _
    · split at h
      · cases h
        simp only [size, idle, List.length_drop, Option.isSome_some, Option.isSome_none, if_true, Bool.false_eq_true,
          if_false]
        omega
      · cases h

theorem sizeNext {d e : Deframer} {packet : Packet} (h : d.next = .ok (e, some packet)) : e.size < d.size := by
  unfold next at h
  cases header : d.takeHeader with
  | error fault => simp [header, bind, Except.bind] at h
  | ok taken =>
      simp only [header, bind, Except.bind] at h
      split at h
      · simp at h
      · rename_i length awaited
        split at h
        · simp at h
        · split at h
          · simp only [Except.ok.injEq, Prod.mk.injEq] at h
            obtain ⟨rfl, _⟩ := h
            refine Nat.lt_of_lt_of_le ?_ (sizeTakeHeader header)
            simp only [size, awaited, List.length_drop, Option.isSome_some, Option.isSome_none, if_true,
              Bool.false_eq_true, if_false]
            omega
          · simp at h

def drain (d : Deframer) : List Packet × Except FrameFault Deframer :=
  match _h : d.next with
  | .error fault => ([], .error fault)
  | .ok (rest, none) => ([], .ok rest)
  | .ok (rest, some packet) =>
      let (packets, last) := rest.drain
      (packet :: packets, last)
termination_by d.size
decreasing_by exact sizeNext _h

/- Feeds pieces of a stream one after the other: for each the packets that have arrived by then, and whether
the stream is still good. Nothing follows a fault. -/
def feedAll (d : Deframer) : List Bytes → List (List Packet × Option FrameFault)
  | [] => []
  | piece :: rest =>
      match (d.feed piece).drain with
      | (packets, .ok next) => (packets, none) :: next.feedAll rest
      | (packets, .error fault) => [(packets, some fault)]

end Deframer

namespace Frame

def writeAll (packets : List Packet) : Outcome Bytes := do
  let frames ← packets.mapM (fun packet => match encode packet with
    | .ok frame => .ok frame
    | .error _ => .error .unreadable)
  .ok frames.flatten

/- All packets of a stream that has ended. Bytes that are left over make it unreadable. -/
def readAll (bytes : Bytes) : Outcome (List Packet) :=
  match (Deframer.start.feed bytes).drain with
  | (packets, .ok rest) => if rest.buffer.isEmpty then .ok packets else .error .unreadable
  | (_, .error _) => .error .unreadable

end Frame

end Vdag
