import Lnvps.Firewall.Learning
import Lnvps.Firewall.SynCookie
import Lnvps.Lib.Frame

/-! # The replies of the SYN proxy -/

namespace Lnvps.Firewall

open Checksum List Frame

inductive IpVersion
 | v4
 | v6
 deriving DecidableEq

inductive Action
 | pass
 | drop
 | tx
 deriving DecidableEq

def Flow.reversed : Flow → Flow
 | .v4 saddr daddr => .v4 daddr saddr
 | .v6 saddr daddr => .v6 daddr saddr

namespace IpVersion

def headerLen : IpVersion → Nat
 | v4 => 20
 | v6 => 40

def tcpOff (v : IpVersion) : Nat := 14 + v.headerLen

def addrOff : IpVersion → Nat
 | v4 => 26
 | v6 => 22

def addrLen : IpVersion → Nat
 | v4 => 4
 | v6 => 16

def flow (f : Frame) (offset : Nat) : IpVersion → Flow
 | v4 => .v4 (.ofNat 32 (f.field (offset + 12) 4)) (.ofNat 32 (f.field (offset + 16) 4))
 | v6 => .v6 (.ofNat 128 (f.field (offset + 8) 16)) (.ofNat 128 (f.field (offset + 24) 16))

end IpVersion

def synFlag (f : Frame) (l4Off : Nat) : Bool := f.byte (l4Off + 13) &&& 0x02 ≠ 0

def ackFlag (f : Frame) (l4Off : Nat) : Bool := f.byte (l4Off + 13) &&& 0x10 ≠ 0

variable (v : IpVersion)

def IpVersion.packet (f : Frame) : Packet where
 flow := v.flow f 14
 sport := .ofNat 16 (f.word v.tcpOff)
 dport := .ofNat 16 (f.word (v.tcpOff + 2))
 syn := synFlag f v.tcpOff
 ack := ackFlag f v.tcpOff
 ackSeq := f.long (v.tcpOff + 8)

def fold (sum : Nat) : Nat :=
 let sum := sum % 65536 + sum / 65536
 let sum := sum % 65536 + sum / 65536
 65535 - sum % 65536

def synackTcp (f : Frame) (off addrSum : Nat) (cookie : UInt32) : Frame :=
 let f := f.swap off (off + 2) 2
 let ackn := f.long (off + 4) + 1
 let f := (f.write (off + 4) (longBytes cookie)).write (off + 8) (longBytes ackn)
 let f := (f.write (off + 12) [0x50, 0x12]).write (off + 14) [0xff, 0xff]
 let f := (f.write (off + 18) [0, 0]).write (off + 16) [0, 0]
 let tsum := addrSum + PROTO_TCP.toNat + 20 + f.word off + f.word (off + 2) + cookie.toNat / 65536 +
  cookie.toNat % 65536 + ackn.toNat / 65536 + ackn.toNat % 65536 + 0x5012 + 0xffff
 f.write (off + 16) (wordBytes (fold tsum))

def synackIp : IpVersion → Frame → Frame
 | .v4, f =>
  let f := (f.swap 0 6 6).swap 26 30 4
  let f := ((f.write 16 [0, 40]).write 22 [64]).write 24 [0, 0]
  let ipsum := (f.words 14 5).sum + (f.words 26 4).sum
  f.write 24 (wordBytes (fold ipsum))
 | .v6, f =>
  let f := (f.swap 0 6 6).swap 22 38 16
  (f.write 18 [0, 20]).write 21 [64]

def txSynack (f : Frame) (cookie : UInt32) : Action × Frame :=
 if f.holds 0 14 && f.holds 14 v.headerLen && f.holds v.tcpOff 20 then
  let f := synackIp v f
  (.tx, synackTcp f v.tcpOff (f.words v.addrOff v.addrLen).sum cookie)
 else (.pass, f)

namespace IpVersion

def nextHeader (f : Frame) : IpVersion → UInt8
 | v4 => f.byte 23
 | v6 => f.byte 20

def segmentLen (f : Frame) : IpVersion → Nat
 | v4 => f.word 16 - (f.byte 14).toNat % 16 * 4
 | v6 => f.word 18

def tcpWords (v : IpVersion) (f : Frame) : List Nat :=
 f.words v.addrOff v.addrLen ++ [(v.nextHeader f).toNat, v.segmentLen f] ++ f.words v.tcpOff (v.segmentLen f / 2)

end IpVersion

def xdpSynProxy (cur prev : UInt64) (f : Frame) : (Action × Frame) × Bool :=
 if f.holds 14 v.headerLen && f.holds v.tcpOff 20 then
  match trySynProxy cur prev (v.packet f) with
  | (.tx cookie, marked) => (txSynack v f cookie, marked)
  | (.drop, marked) => ((.drop, f), marked)
 else ((.drop, f), false)

theorem fold_eq {s : Nat} (hs : s < 65536 * 65535) : fold s = 65535 - reduce s := by
 have hle : reduce s < 65536 := by
  unfold reduce
  split_ifs <;> omega
 unfold fold
 dsimp only
 rw [fold_twice hs, Nat.mod_eq_of_lt hle]

theorem fold_lt (s : Nat) : fold s < 65536 := by
 unfold fold
 dsimp only
 omega

section Tcp

variable (f : Frame) (off addrSum : Nat) (cookie : UInt32)

theorem synackTcp_byte_of_lt {k : Nat} (h : k < off) : (synackTcp f off addrSum cookie).byte k = f.byte k := by
 unfold synackTcp
 simp (disch := omega) only [write_other, swap_other]

def synackSum : Nat :=
 let ackn := f.long (off + 4) + 1
 addrSum + PROTO_TCP.toNat + 20 + f.word (off + 2) + f.word off + cookie.toNat / 65536 +
  cookie.toNat % 65536 + ackn.toNat / 65536 + ackn.toNat % 65536 + 0x5012 + 0xffff

theorem synackTcp_words : (synackTcp f off addrSum cookie).words off 10 =
  [f.word (off + 2), f.word off, cookie.toNat / 65536, cookie.toNat % 65536, (f.long (off + 4) + 1).toNat / 65536,
   (f.long (off + 4) + 1).toNat % 65536, 0x5012, 0xffff, fold (synackSum f off addrSum cookie), 0] := by
 have hlong : (f.swap off (off + 2) 2).long (off + 4) = f.long (off + 4) := by
  simp [Frame.long, Frame.word, Frame.swap, Nat.add_assoc]
 simp only [synackTcp, hlong]
 unfold synackSum
 generalize f.long (off + 4) + 1 = ackn
 have hrange : range 10 = [0, 1, 2, 3, 4, 5, 6, 7, 8, 9] := rfl
 have hflags : ([0x50, 0x12] : List UInt8) = wordBytes 0x5012 := rfl
 have hwindow : ([0xff, 0xff] : List UInt8) = wordBytes 0xffff := rfl
 have hzero : ([0, 0] : List UInt8) = wordBytes 0 := rfl
 simp only [Frame.words, hrange, map_cons, map_nil, Nat.mul_zero, Nat.add_zero, hflags, hwindow, hzero]
 simp (disch := first | omega | exact fold_lt _) only [Frame.write_word_of_lt,
  Frame.write_word_of_ge, Frame.swap_word_left, Frame.swap_word_right, Frame.write_word, Frame.write_long_high,
  Frame.write_long_low]

end Tcp

section Ip

variable (v : IpVersion) (f : Frame)

theorem synackIp_mac {i : Nat} (hi : i < 6) :
  (synackIp v f).byte i = f.byte (6 + i) ∧ (synackIp v f).byte (6 + i) = f.byte i := by
 have hleft := @swap_left f 0 6 6 i hi
 have hright := @swap_right f 0 6 6 i (by omega) hi
 rw [Nat.zero_add] at hleft hright
 cases v <;> constructor <;>
  simp (disch := omega) only [synackIp, write_other, swap_other, hleft, hright]

theorem synackIp_addr {i : Nat} (hi : i < v.addrLen) :
  (synackIp v f).byte (v.addrOff + i) = f.byte (v.addrOff + v.addrLen + i) ∧
   (synackIp v f).byte (v.addrOff + v.addrLen + i) = f.byte (v.addrOff + i) := by
 have hleft := @swap_left (f.swap 0 6 6) v.addrOff (v.addrOff + v.addrLen) v.addrLen i hi
 have hright := @swap_right (f.swap 0 6 6) v.addrOff (v.addrOff + v.addrLen) v.addrLen i le_rfl hi
 cases v <;> simp only [IpVersion.addrOff, IpVersion.addrLen, Nat.reduceAdd] at * <;> constructor <;>
  simp (disch := simp only [wordBytes, length_cons, length_nil]; omega) only [synackIp, write_other,
   hleft, hright] <;>
  exact swap_other (by omega) (by omega)

theorem synackIp_tcp {k : Nat} (hk : v.tcpOff ≤ k) : (synackIp v f).byte k = f.byte k := by
 cases v <;> simp only [IpVersion.tcpOff, IpVersion.headerLen] at hk <;>
  simp (disch := first | omega | (simp only [wordBytes, length_cons, length_nil]; omega)) only [synackIp,
   write_other, swap_other]

theorem write_words_around (w : Nat) (hw : w < 65536) :
  (f.write 24 (wordBytes w)).words 14 10 = f.words 14 5 ++ w :: f.words 26 4 := by
 have hten : range 10 = [0, 1, 2, 3, 4, 5, 6, 7, 8, 9] := rfl
 simp (disch := omega) only [words, hten, map_cons, map_nil, write_word_of_lt,
  write_word_of_ge, write_word hw]
 rfl

theorem write_fold_checksum :
  onesSum ((f.write 24 (wordBytes (fold ((f.words 14 5).sum + (f.words 26 4).sum)))).words 14 10) = 0xffff := by
 have h5 := @words_sum_le f 14 5
 have h4 := @words_sum_le f 26 4
 refine @onesSum_complement _ ((f.words 14 5).sum + (f.words 26 4).sum) words_lt ?_
 rw [write_words_around _ _ (fold_lt _), sum_append, sum_cons, fold_eq (by omega)]
 omega

variable {v} {f}

structure IsSyn (v : IpVersion) (f : Frame) : Prop where
 whole : f.holds v.tcpOff 20 = true
 plain : v = .v4 → f.byte 14 = 0x45
 tcp : v.nextHeader f = PROTO_TCP
 syn : synFlag f v.tcpOff = true
 ack : ackFlag f v.tcpOff = false

theorem holds_of_whole (h : f.holds v.tcpOff 20 = true) : f.holds 0 14 = true ∧ f.holds 14 v.headerLen = true := by
 have hlen : 14 + v.headerLen + 20 ≤ f.len := of_decide_eq_true h
 exact ⟨decide_eq_true (by omega), decide_eq_true (by omega)⟩

theorem synackIp_nextHeader : v.nextHeader (synackIp v f) = v.nextHeader f := by
 cases v <;> simp [synackIp, IpVersion.nextHeader, Frame.write, Frame.swap, wordBytes]

theorem synackIp_segmentLen (h : IsSyn v f) : v.segmentLen (synackIp v f) = 20 := by
 cases v with
 | v4 => simp [synackIp, IpVersion.segmentLen, Frame.word, Frame.write, Frame.swap, wordBytes, h.plain rfl]
 | v6 => simp [synackIp, IpVersion.segmentLen, Frame.word, Frame.write, Frame.swap]

theorem synackTcp_checksum {cookie : UInt32} {addrs : List Nat} {off : Nat} (haddrs : ∀ w ∈ addrs, w < 65536)
  (hsum : addrs.sum ≤ 16 * 65535) :
  onesSum (addrs ++ [PROTO_TCP.toNat, 20] ++ (synackTcp f off addrs.sum cookie).words off 10) = 0xffff := by
 have hbound : synackSum f off addrs.sum cookie < 65536 * 65535 := by
  have hsource := @word_lt f off
  have hdest := @word_lt f (off + 2)
  have hcookie := cookie.toNat_lt
  have hack := (f.long (off + 4) + 1).toNat_lt
  have htcp : PROTO_TCP.toNat = 6 := rfl
  unfold synackSum
  dsimp only
  omega
 refine @onesSum_complement _ (synackSum f off addrs.sum cookie) ?_ ?_
 · simp only [mem_append, or_imp, forall_and]
   exact ⟨⟨haddrs, by simp [PROTO_TCP]⟩, words_lt⟩
 rw [synackTcp_words, fold_eq hbound]
 rw [sum_append, sum_append]
 repeat rw [sum_cons]
 rw [sum_nil]
 generalize hreduce : 65535 - reduce (synackSum f off addrs.sum cookie) = r
 unfold synackSum
 dsimp only
 omega

structure Answers (v : IpVersion) (f g : Frame) : Prop where
 macs : ∀ i < 6, g.byte i = f.byte (6 + i) ∧ g.byte (6 + i) = f.byte i
 flow : v.flow g 14 = (v.flow f 14).reversed
 ports : g.word v.tcpOff = f.word (v.tcpOff + 2) ∧ g.word (v.tcpOff + 2) = f.word v.tcpOff
 flags : synFlag g v.tcpOff = true ∧ ackFlag g v.tcpOff = true
 ackSeq : g.long (v.tcpOff + 8) = f.long (v.tcpOff + 4) + 1
 header : v = .v4 → onesSum (g.words 14 10) = 0xffff
 segment : onesSum (v.tcpWords g) = 0xffff

theorem flow_reversed {g : Frame} (h : ∀ i < v.addrLen, g.byte (v.addrOff + i) = f.byte (v.addrOff + v.addrLen + i) ∧
  g.byte (v.addrOff + v.addrLen + i) = f.byte (v.addrOff + i)) : v.flow g 14 = (v.flow f 14).reversed := by
 have hsrc := field_congr fun i hi => (h i hi).1
 have hdst := field_congr fun i hi => (h i hi).2
 cases v <;> simp only [IpVersion.addrLen, IpVersion.addrOff, Nat.reduceAdd] at hsrc hdst <;>
  simp only [IpVersion.flow, Flow.reversed, Nat.reduceAdd, hsrc, hdst]

theorem synackTcp_fields {g : Frame} {off addrSum : Nat} {cookie : UInt32} (hg : g = synackTcp f off addrSum cookie) :
  (g.word off = f.word (off + 2) ∧ g.word (off + 2) = f.word off) ∧ (synFlag g off = true ∧ ackFlag g off = true) ∧
   g.long (off + 4) = cookie ∧ g.long (off + 8) = f.long (off + 4) + 1 := by
 have hwords := synackTcp_words f off addrSum cookie
 have hten : range 10 = [0, 1, 2, 3, 4, 5, 6, 7, 8, 9] := rfl
 simp only [← hg, words, hten, map_cons, map_nil, Nat.reduceMul, Nat.add_zero,
  cons.injEq] at hwords
 obtain ⟨hsource, hdest, hhigh, hlow, hackHigh, hackLow, hflags, -⟩ := hwords
 have hlong (x : UInt32) : UInt32.ofNat (x.toNat / 65536 * 65536 + x.toNat % 65536) = x := by
  rw [Nat.div_add_mod', UInt32.ofNat_toNat]
 have hbyte : g.byte (off + 13) = 0x12 := by
  have hlt := (g.byte (off + 13)).toNat_lt
  have hword : (g.byte (off + 12)).toNat * 256 + (g.byte (off + 13)).toNat = 0x5012 := hflags
  exact UInt8.toNat_inj.mp (show _ = 0x12 by omega)
 refine ⟨⟨hsource, hdest⟩, ?_, ?_, ?_⟩
 · rw [synFlag, ackFlag, hbyte]
   decide
 · rw [long, hhigh, hlow, hlong]
 · rw [long, hackHigh, hackLow, hlong]

theorem synack_answers (h : IsSyn v f) (cookie : UInt32) : ∃ g, txSynack v f cookie = (.tx, g) ∧
  Answers v f g ∧ g.long (v.tcpOff + 4) = cookie := by
 have hholds : (f.holds 0 14 && f.holds 14 v.headerLen && f.holds v.tcpOff 20) = true := by
  rw [(holds_of_whole h.whole).1, (holds_of_whole h.whole).2, h.whole]
  rfl
 generalize hg : synackTcp (synackIp v f) v.tcpOff ((synackIp v f).words v.addrOff v.addrLen).sum cookie = g
 have hip {k : Nat} (hk : k < v.tcpOff) : g.byte k = (synackIp v f).byte k := by
  rw [← hg]
  exact synackTcp_byte_of_lt _ _ _ _ hk
 have htcp (k : Nat) : (synackIp v f).word (v.tcpOff + k) = f.word (v.tcpOff + k) :=
  word_congr (synackIp_tcp v f (Nat.le_add_right _ _)) (synackIp_tcp v f (by omega))
 have haddr : v.addrOff + v.addrLen + v.addrLen = v.tcpOff := by cases v <;> rfl
 have hmac : 12 ≤ v.tcpOff := by cases v <;> decide
 obtain ⟨hports, hflags, hseq, hack⟩ := synackTcp_fields hg.symm
 refine ⟨g, (if_pos hholds).trans (by rw [← hg]), ⟨?_, ?_, ?_, hflags, ?_, ?_, ?_⟩, hseq⟩
 · intro i hi
   rw [hip (by omega), hip (by omega)]
   exact synackIp_mac v f hi
 · refine flow_reversed fun i hi => ?_
   rw [hip (by omega), hip (by omega)]
   exact synackIp_addr v f hi
 · exact ⟨hports.1.trans (htcp 2), hports.2.trans (htcp 0)⟩
 · rw [hack, long, htcp 4, htcp 6, long]
 · rintro rfl
   rw [words_congr fun i hi => hip (show 14 + i < 34 by omega)]
   exact write_fold_checksum _
 · have hwords : g.words v.addrOff v.addrLen = (synackIp v f).words v.addrOff v.addrLen :=
    words_congr fun i hi => hip (by omega)
   have hnext : v.nextHeader g = PROTO_TCP := by
    rw [← h.tcp, ← synackIp_nextHeader]
    cases v <;> exact hip (by decide)
   have hlen : v.segmentLen g = 20 := by
    rw [← synackIp_segmentLen h]
    cases v with
    | v4 =>
     rw [IpVersion.segmentLen, IpVersion.segmentLen, hip (by decide)]
     rw [word_congr (hip (by decide)) (hip (by decide))]
    | v6 => exact word_congr (hip (by decide)) (hip (by decide))
   rw [IpVersion.tcpWords, hwords, hnext, hlen, ← hg]
   refine synackTcp_checksum words_lt (Nat.le_trans words_sum_le ?_)
   cases v <;> decide

structure Acknowledges (v : IpVersion) (f g a : Frame) : Prop where
 whole : a.holds v.tcpOff 20 = true
 flow : v.flow a 14 = v.flow f 14
 ports : a.word v.tcpOff = f.word v.tcpOff ∧ a.word (v.tcpOff + 2) = f.word (v.tcpOff + 2)
 flags : synFlag a v.tcpOff = false ∧ ackFlag a v.tcpOff = true
 ackSeq : a.long (v.tcpOff + 8) = g.long (v.tcpOff + 4) + 1

/-- The proxy answers a SYN with a valid SYN-ACK, and verifies the client that acknowledges it: the secret of the
reply is still in one of the slots after a rotation. -/
theorem synack_accepted (v : IpVersion) (f : Frame) (h : IsSyn v f) (cur prev : UInt64) :
  ∃ g, xdpSynProxy v cur prev f = ((.tx, g), false) ∧ Answers v f g ∧
   ∀ a, Acknowledges v f g a → ∀ cur' prev', cur' = cur ∨ prev' = cur → (xdpSynProxy v cur' prev' a).2 = true := by
 obtain ⟨g, htx, hanswers, hseq⟩ := synack_answers h ((v.packet f).cookie cur)
 refine ⟨g, ?_, hanswers, ?_⟩
 · have hproxy : trySynProxy cur prev (v.packet f) = (.tx ((v.packet f).cookie cur), false) :=
    if_pos (by simp [IpVersion.packet, h.syn, h.ack])
   rw [xdpSynProxy, if_pos (by rw [(holds_of_whole h.whole).2, h.whole]; rfl), hproxy]
   exact Prod.ext htx rfl
 intro a ha cur' prev' hslot
 have hcookie (secret : UInt64) : (v.packet a).cookie secret = (v.packet f).cookie secret := by
  simp only [Packet.cookie, IpVersion.packet, ha.flow, ha.ports.1, ha.ports.2]
 have hechoed : (v.packet a).ackSeq - 1 = (v.packet f).cookie cur := by
  rw [← hseq]
  exact (congrArg (· - 1) ha.ackSeq).trans (by simp)
 have hproxy : trySynProxy cur' prev' (v.packet a) = (.drop, true) := by
  rw [trySynProxy, hcookie, hcookie, hechoed]
  obtain rfl | rfl := hslot <;> simp [IpVersion.packet, ha.flags]
 rw [xdpSynProxy, if_pos (by rw [(holds_of_whole ha.whole).2, ha.whole]; rfl), hproxy]

def synFrame : Frame where
 len := 54
 byte := fun k => if k = 12 then 0x08 else if k = 14 then 0x45 else if k = 23 then 6 else if k = 47 then 0x02 else 0

theorem synack_accepted_after_rotation : ∃ g a, xdpSynProxy .v4 7 5 synFrame = ((.tx, g), false) ∧
  Answers .v4 synFrame g ∧ Acknowledges .v4 synFrame g a ∧ (xdpSynProxy .v4 9 7 a).2 = true := by
 obtain ⟨g, hreply, hanswers, haccepted⟩ :=
  synack_accepted .v4 synFrame ⟨by decide, fun _ => rfl, rfl, by decide, by decide⟩ 7 5
 have hacks : Acknowledges .v4 synFrame g
   ((synFrame.write 47 [0x10]).write 42 (longBytes (g.long 38 + 1))) := by
  refine ⟨rfl, rfl, ⟨rfl, rfl⟩, ⟨decide_eq_false ?_, decide_eq_true ?_⟩, ?_⟩
  · exact show ¬ (0x10 : UInt8) &&& 0x02 ≠ 0 by decide
  · exact show (0x10 : UInt8) &&& 0x10 ≠ 0 by decide
  exact Frame.write_long _
 exact ⟨g, _, hreply, hanswers, hacks, haccepted _ hacks 9 7 (Or.inr rfl)⟩

end Ip

end Lnvps.Firewall
