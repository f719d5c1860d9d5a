/-
# AdManager.Wire.Frame — the four-byte header in front of every message body.

`request` and `queueRspMsg` write `int len = htonl(...)` as four raw bytes, and `readHead` turns them
back with `ntohl`: a big-endian unsigned 32-bit word, whatever the machine's own byte order. The pair
instantiates the length-prefixed streams of `AdManager.Lib.Framing`, so that everything proved there
holds of the byte streams of this protocol.
-/
import AdManager.Lib.Framing
import AdManager.Wire.Message
import Mathlib.Tactic.NormNum

namespace AdManager.Wire

open AdManager.Lib

/-- The four bytes of `htonl(len)`. -/
def htonl (n : Nat) : Bytes :=
  [UInt8.ofNat (n / 2 ^ 24), UInt8.ofNat (n / 2 ^ 16), UInt8.ofNat (n / 2 ^ 8), UInt8.ofNat n]

/-- `ntohl` of the first four bytes of a buffer, as an unsigned number. -/
def ntohl : Bytes → Nat
  | a :: b :: c :: d :: _ => a.toNat * 2 ^ 24 + b.toNat * 2 ^ 16 + c.toNat * 2 ^ 8 + d.toNat
  | _ => 0

/-- The longest body the program expects: `1024 * 1024 * 20`. -/
def maxBody : Nat := 1024 * 1024 * 20

@[simp] theorem htonl_length (n : Nat) : (htonl n).length = 4 := rfl

/-- Behind the header is the body. -/
@[simp] theorem drop_htonl (n : Nat) (body : Bytes) : (htonl n ++ body).drop 4 = body := rfl

theorem ntohl_lt (h : Bytes) : ntohl h < 2 ^ 32 := by
  match h with
  | a :: b :: c :: d :: _ =>
      have ha := a.toNat_lt
      have hb := b.toNat_lt
      have hc := c.toNat_lt
      have hd := d.toNat_lt
      simp only [ntohl]
      omega
  | [] | [_] | [_, _] | [_, _, _] => simp [ntohl]

theorem ntohl_htonl_append {n : Nat} (h : n < 2 ^ 32) (rest : Bytes) :
    ntohl (htonl n ++ rest) = n := by
  simp only [htonl, List.cons_append, ntohl, UInt8.toNat_ofNat']
  omega

theorem htonl_ntohl {h : Bytes} (hlen : h.length = 4) : htonl (ntohl h) = h := by
  match h, hlen with
  | [a, b, c, d], _ =>
      have ha := a.toNat_lt
      have hb := b.toNat_lt
      have hc := c.toNat_lt
      have hd := d.toNat_lt
      simp only [htonl, ntohl, List.cons.injEq, and_true]
      refine ⟨?_, ?_, ?_, ?_⟩ <;>
      · apply UInt8.toNat_inj.mp
        rw [UInt8.toNat_ofNat']
        omega

/-- The stream format of a connection: each body behind its four-byte big-endian length. -/
def stream : Framing UInt8 where
  hdr := 4
  bound := 2 ^ 32
  header := htonl
  announced := ntohl
  hdr_pos := by norm_num
  header_length := fun n _ => htonl_length n
  announced_header := fun n hn => by simpa using ntohl_htonl_append hn []
  announced_lt := fun h _ => ntohl_lt h
  header_announced := fun _ hlen => htonl_ntohl hlen

@[simp] theorem stream_hdr : stream.hdr = 4 := rfl

@[simp] theorem stream_bound : stream.bound = 2 ^ 32 := rfl

@[simp] theorem stream_announced (h : Bytes) : stream.announced h = ntohl h := rfl

theorem stream_frame (body : Bytes) : stream.frame body = htonl body.length ++ body := rfl

end AdManager.Wire
