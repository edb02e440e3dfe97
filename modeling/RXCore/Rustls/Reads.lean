import RXCore.Rustls.Joining

/-!
# Reads of the deframer

A read appends to what the buffer stands for, and the buffer stays within bounds.

* **`read_spec`**: bytes are taken off the socket if and only if the buffer is not full;
* **`used_lt_of_more`**: after an attempt that got nothing there is room for the record that has begun.
-/

set_option autoImplicit false

namespace RXCore.Rustls

open Cursor Cursor.Walk Framing

variable {κ : Type} {A : Aead κ} {d : MessageDeframer} {joined : Option Joined} {u : List UInt8}

/-- What comes after the bytes in use is of no account, and what is read goes there. -/
theorem Holds.split (h : Holds d joined u) : ∃ front slack, d.buf = front ++ slack ∧ front.length = d.used ∧
    ∀ w slack', Holds { d with buf := front ++ (w ++ slack'), used := d.used + w.length } joined (u ++ w) := by
  cases h with
  | idle u slack =>
    refine ⟨u, slack, rfl, rfl, fun w slack' => ?_⟩
    have hw := Holds.idle (u ++ w) slack'
    rwa [List.append_assoc, List.length_append] at hw
  | joining pre p gap u slack version expectedLen size pos =>
    refine ⟨pre ++ (p ++ (gap ++ u)), slack, by simp only [List.append_assoc], ?_, fun w slack' => ?_⟩
    · simp only [List.length_append, Nat.add_assoc]
    · have hw := Holds.joining pre p gap (u ++ w) slack' version expectedLen size pos
      simp only [List.append_assoc, List.length_append, ← Nat.add_assoc] at hw ⊢
      exact hw

/-- **There is room for a read**, unless the buffer is full. -/
theorem prepareRead_spec (h : Holds d joined u) (hlt : d.used < d.allowMax) :
    ∃ front slack, d.prepareRead = .ok { d with buf := front ++ slack } ∧ front.length = d.used ∧
      min d.allowMax (d.used + readSize) ≤ (front ++ slack).length ∧ (front ++ slack).length ≤ d.allowMax ∧
      ∀ w slack', Holds { d with buf := front ++ (w ++ slack'), used := d.used + w.length } joined (u ++ w) := by
  obtain ⟨front, slack, hbuf, hfront, hholds⟩ := h.split
  have hneed : d.used ≤ min d.allowMax (d.used + readSize) := le_min hlt.le (Nat.le_add_right _ _)
  have hresize : ∃ slack', MessageDeframer.resize d.buf (min d.allowMax (d.used + readSize)) = front ++ slack' ∧
      (front ++ slack').length = min d.allowMax (d.used + readSize) := by
    generalize min d.allowMax (d.used + readSize) = n at hneed
    refine ⟨slack.take (n - front.length) ++ List.replicate (n - d.buf.length) 0, ?_, ?_⟩
    · rw [MessageDeframer.resize, hbuf, List.take_append, List.take_of_length_le (by omega), List.append_assoc]
    · simp only [List.length_append, List.length_take, List.length_replicate, hbuf]
      omega
  rw [MessageDeframer.prepareRead, if_neg (Nat.not_le.mpr hlt)]
  by_cases hresized : d.buf.length < min d.allowMax (d.used + readSize) ∨ d.used = 0 ∨ d.allowMax < d.buf.length
  · obtain ⟨slack', heq, hlen⟩ := hresize
    refine ⟨front, slack', ?_, hfront, hlen.ge, hlen.trans_le (min_le_left _ _), hholds⟩
    simp only [heq]
    split_ifs with hshort hshrink
    · rfl
    · rfl
    · exact absurd hresized (not_or.mpr ⟨hshort, hshrink⟩)
  · obtain ⟨hshort, hshrink⟩ := not_or.mp hresized
    refine ⟨front, slack, ?_, hfront, hbuf ▸ Nat.not_lt.mp hshort, hbuf ▸ Nat.not_lt.mp (not_or.mp hshrink).2, hholds⟩
    simp only [hshort, hshrink, if_false, ← hbuf]

/-- **What a read does**: where the buffer is full nothing is taken; else some of what is there, which the buffer then
stands for. -/
theorem read_spec (h : Holds d joined u) (rd : List UInt8) :
    if d.allowMax ≤ d.used then d.read rd = ok (.error "message buffer full", d)
    else ∃ n d', d.read rd = ok (.ok n, d') ∧ n ≤ rd.length ∧ min rd.length (min (d.allowMax - d.used) readSize) ≤ n ∧
      Holds d' joined (u ++ rd.take n) ∧ d'.buf.length ≤ d.allowMax := by
  split_ifs with hfull
  · rw [MessageDeframer.read, MessageDeframer.prepareRead, if_pos hfull]
  · obtain ⟨front, slack, hprepare, hfront, hneed, hle, hholds⟩ := prepareRead_spec h (Nat.not_le.mp hfull)
    rw [List.length_append] at hneed hle
    obtain ⟨new, hnew⟩ : ∃ new, new = rd.take slack.length := ⟨_, rfl⟩
    have hlen : new.length = min slack.length rd.length := by rw [hnew, List.length_take]
    have htake : rd.take new.length = new := by rw [hlen, ← List.take_take, List.take_length, hnew]
    have hroom : sliceFrom (front ++ slack) d.used = ok slack := by
      rw [sliceFrom_ok (by rw [List.length_append, hfront]; omega), ← hfront, List.drop_left]
    have hcopy := copyInto_append front slack new (by omega)
    rw [hfront] at hcopy
    have hread : d.read rd = ok (.ok new.length,
        { d with buf := front ++ (new ++ slack.drop new.length), used := d.used + new.length }) := by
      rw [MessageDeframer.read, hprepare]
      simp only [hroom, ok_bind, ← hnew, hcopy]
      rfl
    refine ⟨new.length, _, hread, by omega, by omega, ?_, ?_⟩
    · rw [htake]
      exact hholds new (slack.drop new.length)
    · rw [List.length_append, List.length_append, List.length_drop]
      omega

namespace Framer

variable {s s' : Framer κ} {v : Option ProtocolVersion} {r : List UInt8}

/-- What is left when an attempt gets nothing is less than a record. -/
theorem length_of_more (h : next A v s u = .more s' r) : r.length < OpaqueMessage.maxWireSize := by
  induction hn : u.length using Nat.strong_induction_on generalizing s u with
  | _ n ih =>
    cases hc : s.joined.bind Joined.completeLen with
    | some len =>
      obtain ⟨j, hj, hlen⟩ := Option.bind_eq_some_iff.mp hc
      obtain ⟨joined, layer⟩ := s
      obtain rfl : joined = some j := hj
      rw [next_of_complete hlen] at h
      cases hy : j.yield len <;> simp [hy] at h
    | none =>
      cases hr : OpaqueMessage.read u with
      | error e =>
        cases he : MessageDeframer.readErr e with
        | none =>
          rw [next_of_tooShort hc hr he] at h
          obtain ⟨-, rfl⟩ := Next.more.inj h
          exact OpaqueMessage.length_of_read_tooShort hr (readErr_eq_none.mp he)
        | some e' => simp [next_of_unreadable hc hr he] at h
      | ok mr =>
        obtain ⟨m, u'⟩ := mr
        have hlt := length_lt_of_read hr
        cases ht : take A v s m with
        | mk taken layer =>
          cases taken with
          | emit o => simp [next_of_emit hc hr ht] at h
          | refuse e => simp [next_of_refuse hc hr ht] at h
          | skip => exact ih _ (by omega) (next_of_skip hc hr ht ▸ h) rfl
          | join j => exact ih _ (by omega) (next_of_join hc hr ht ▸ h) rfl

end Framer

/-- **Between handshake messages a read is not refused** after an attempt that got nothing. -/
theorem used_lt_of_more {s s' : Framer κ} {v : Option ProtocolVersion} {r : List UInt8}
    (hnext : Framer.next A v s u = .more s' r) (hjoined : s'.joined = none) (h : Holds d s'.joined r) :
    d.used < d.allowMax := by
  have hlt := Framer.length_of_more hnext
  rw [hjoined] at h
  cases h with
  | idle u slack => exact hlt

end RXCore.Rustls
