import Mathlib

/-!
# Decoders of a stream

A decoder takes items off the front of a stream of which more and more arrives. What it has read of an item
that is not complete it holds in its state, or leaves in front of what arrives next.

* `Next`, `Decoder`: one attempt, and the decoders for which it does not matter when it is made
  (`next_append`) and that come to an end (`shrinks`);
* `Decoder.drain`: all items that are there; **`drain_append`**: what arrives later changes nothing about them.
-/

set_option autoImplicit false

namespace Framing

variable {σ β ω ε : Type*}

/-- What one attempt comes to: nothing yet, an item, or a failure; with the state and what is left of the stream. -/
inductive Next (σ β ω ε : Type*) where
  | more (s : σ) (rest : List β)
  | item (o : ω) (s : σ) (rest : List β)
  | fail (e : ε) (s : σ)

/-- The attempt once `v` has arrived: one that got nothing is made again. -/
def Next.extend (next : σ → List β → Next σ β ω ε) (v : List β) : Next σ β ω ε → Next σ β ω ε
  | more s rest => next s (rest ++ v)
  | item o s rest => item o s (rest ++ v)
  | fail e s => fail e s

/-- A decoder; `held s` is how much of the stream the state `s` holds. -/
structure Decoder (σ β ω ε : Type*) where
  next : σ → List β → Next σ β ω ε
  held : σ → ℕ
  shrinks : ∀ {s u o s' r}, next s u = .item o s' r → held s' + r.length < held s + u.length
  next_append : ∀ s u v, next s (u ++ v) = (next s u).extend next v

/-- Where a decoder stops: it has nothing more, or it has failed. -/
inductive Outcome (σ β ε : Type*) where
  | idle (s : σ) (rest : List β)
  | failed (e : ε) (s : σ)

namespace Decoder

variable (d : Decoder σ β ω ε)

/-- Items until there is none. -/
def drain (s : σ) (u : List β) : List ω × Outcome σ β ε :=
  match _h : d.next s u with
  | .more s' r => ([], .idle s' r)
  | .item o s' r => (o :: (drain s' r).1, (drain s' r).2)
  | .fail e s' => ([], .failed e s')
termination_by d.held s + u.length
decreasing_by exact d.shrinks _h

variable {d}

theorem drain_of_more {s s' : σ} {u r : List β} (h : d.next s u = .more s' r) :
    d.drain s u = ([], .idle s' r) := by
  rw [drain]
  split <;> simp_all

theorem drain_of_item {s s' : σ} {u r : List β} {o : ω} (h : d.next s u = .item o s' r) :
    d.drain s u = (o :: (d.drain s' r).1, (d.drain s' r).2) := by
  rw [drain]
  split <;> simp_all

theorem drain_of_fail {s s' : σ} {u : List β} {e : ε} (h : d.next s u = .fail e s') :
    d.drain s u = ([], .failed e s') := by
  rw [drain]
  split <;> simp_all

/-- Two states of a stream from which the same attempt is made give the same items. -/
theorem drain_congr {s t : σ} {u v : List β} (h : d.next s u = d.next t v) : d.drain s u = d.drain t v := by
  cases ht : d.next t v with
  | more s' r => rw [drain_of_more ht, drain_of_more (h.trans ht)]
  | item o s' r => rw [drain_of_item ht, drain_of_item (h.trans ht)]
  | fail e s' => rw [drain_of_fail ht, drain_of_fail (h.trans ht)]

variable (d) in
/-- To go on with `v`; a decoder that has failed does not. -/
def resume : List ω × Outcome σ β ε → List β → List ω × Outcome σ β ε
  | (os, .idle s r), v => (os ++ (d.drain s (r ++ v)).1, (d.drain s (r ++ v)).2)
  | (os, .failed e s), _ => (os, .failed e s)

/-- **What arrives later changes nothing about the items that are there.** -/
theorem drain_append (s : σ) (u v : List β) : d.drain s (u ++ v) = d.resume (d.drain s u) v := by
  induction hn : d.held s + u.length using Nat.strong_induction_on generalizing s u with
  | _ n ih =>
    have hnext := d.next_append s u v
    cases h : d.next s u with
    | more s' r =>
      rw [h] at hnext
      rw [drain_of_more h, resume, List.nil_append]
      exact drain_congr hnext
    | item o s' r =>
      rw [h] at hnext
      have hrest := ih _ (hn ▸ d.shrinks h) s' r rfl
      rw [drain_of_item hnext, drain_of_item h, hrest]
      cases hd : d.drain s' r with
      | mk os out => cases out <;> rfl
    | fail e s' =>
      rw [h] at hnext
      rw [drain_of_fail hnext, drain_of_fail h]
      rfl

/-- A decoder that has stopped goes on as if it had not. -/
theorem drain_of_idle {s s' : σ} {u r : List β} (h : (d.drain s u).2 = .idle s' r) (v : List β) :
    (d.drain s' (r ++ v)).2 = (d.drain s (u ++ v)).2 := by
  have happend := drain_append (d := d) s u v
  cases hd : d.drain s u with
  | mk os out =>
    rw [hd] at h happend
    obtain rfl : out = .idle s' r := h
    rw [happend, resume]

/-- A state in which an attempt got nothing stays as it is until more arrives. -/
theorem next_of_more {s s' : σ} {u r : List β} (h : d.next s u = .more s' r) : d.next s' r = .more s' r := by
  have hnil := d.next_append s u []
  rw [List.append_nil, h, Next.extend, List.append_nil] at hnil
  exact hnil.symm

/-- Where the decoder stops, the next attempt gets nothing. -/
theorem next_of_drain {s s' : σ} {u r : List β} (h : (d.drain s u).2 = .idle s' r) :
    d.next s' r = .more s' r := by
  induction hn : d.held s + u.length using Nat.strong_induction_on generalizing s u with
  | _ n ih =>
    cases hnext : d.next s u with
    | more t v =>
      rw [drain_of_more hnext] at h
      obtain ⟨rfl, rfl⟩ := Outcome.idle.inj h
      exact next_of_more hnext
    | item o t v =>
      rw [drain_of_item hnext] at h
      exact ih _ (hn ▸ d.shrinks hnext) h rfl
    | fail e t =>
      rw [drain_of_fail hnext] at h
      cases h

end Decoder

end Framing
