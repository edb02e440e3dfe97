import RXCore.Net

/-!
# Addresses as text

An address is read as it was written: `parse` inverts `Display`.

* `readNumber_toDigits`, `readIpv4Addr_display`: a number of the text, four octets;
* `groupsText`, `readGroups_text`: groups with colons between them;
* `longestZeros_zeros`: the run of groups that `::` stands for is a run of zeros;
* **`parseIpAddr_display`**; `display_cases`: the text of an IPv6 address that maps no IPv4 address;
* `displayChars`, **`mem_displayChars`**: the characters of an address.
-/

set_option autoImplicit false

namespace RXCore

/-! ## Numbers -/

section

variable {b n : ℕ}

theorem toDigit_digitChar {d : ℕ} (hd : d < b) (hb : b ≤ 16) : toDigit b (Nat.digitChar d) = some d := by
  have hall : ∀ d : Fin 16, (Nat.digitChar (d : ℕ)).toNat = if (d : ℕ) < 10 then 48 + (d : ℕ) else 87 + (d : ℕ) := by
    decide
  have hchar := hall ⟨d, by omega⟩
  simp only at hchar
  have hvalue : (if 48 ≤ (Nat.digitChar d).toNat ∧ (Nat.digitChar d).toNat ≤ 57 then (Nat.digitChar d).toNat - 48
      else if 97 ≤ (Nat.digitChar d).toNat ∧ (Nat.digitChar d).toNat ≤ 122 then (Nat.digitChar d).toNat - 87
      else if 65 ≤ (Nat.digitChar d).toNat ∧ (Nat.digitChar d).toNat ≤ 90 then (Nat.digitChar d).toNat - 55
      else b) = d := by
    rw [hchar]
    split_ifs <;> omega
  simp only [toDigit, hvalue, if_pos hd]

theorem exists_digitChar (hb1 : 1 < b) : ∀ c ∈ Nat.toDigits b n, ∃ d < b, c = Nat.digitChar d := by
  induction n using Nat.strong_induction_on with
  | _ n ih =>
    rw [Nat.toDigits_eq_if hb1]
    intro c hc
    split_ifs at hc with hn
    · exact ⟨n, hn, List.mem_singleton.mp hc⟩
    · rcases List.mem_append.mp hc with hc | hc
      · exact ih (n / b) (Nat.div_lt_self (by omega) hb1) c hc
      · exact ⟨n % b, Nat.mod_lt n (by omega), List.mem_singleton.mp hc⟩

theorem isSome_of_mem_toDigits (hb1 : 1 < b) (hb : b ≤ 16) : ∀ c ∈ Nat.toDigits b n, (toDigit b c).isSome := by
  intro c hc
  obtain ⟨d, hd, rfl⟩ := exists_digitChar hb1 c hc
  rw [toDigit_digitChar hd hb]
  rfl

theorem foldl_toDigits (hb1 : 1 < b) (hb : b ≤ 16) :
    (Nat.toDigits b n).foldl (fun m c => m * b + (toDigit b c).getD 0) 0 = n := by
  induction n using Nat.strong_induction_on with
  | _ n ih =>
    rw [Nat.toDigits_eq_if hb1]
    split_ifs with hn
    · simp [toDigit_digitChar hn hb]
    · rw [List.foldl_append, ih (n / b) (Nat.div_lt_self (by omega) hb1)]
      simp only [List.foldl_cons, List.foldl_nil, toDigit_digitChar (Nat.mod_lt n (by omega)) hb, Option.getD_some]
      exact Nat.div_add_mod' n b

/-- Only the number zero begins with a zero. -/
theorem eq_zero_of_head_toDigits (hb1 : 1 < b) (h : (Nat.toDigits b n).head? = some '0') : n = 0 := by
  induction n using Nat.strong_induction_on with
  | _ n ih =>
    rw [Nat.toDigits_eq_if hb1] at h
    split_ifs at h with hn
    · simpa using h
    · rw [List.head?_append_of_ne_nil _ Nat.toDigits_ne_nil] at h
      have hzero := ih (n / b) (Nat.div_lt_self (by omega) hb1) h
      have hpos := Nat.div_pos (not_lt.mp hn) (by omega : 0 < b)
      omega

/-- **A number is read to its end.** -/
theorem readNumber_toDigits (hb1 : 1 < b) (hb : b ≤ 16) {maxDigits max : ℕ} (allowZeroPrefix : Bool)
    (hlen : (Nat.toDigits b n).length ≤ maxDigits) (hmax : n ≤ max) {rest : List Char}
    (hrest : ∀ c ∈ rest.head?, toDigit b c = none) :
    readNumber b maxDigits max allowZeroPrefix (Nat.toDigits b n ++ rest) = some (n, rest) := by
  have htake : (Nat.toDigits b n ++ rest).takeWhile (fun c => (toDigit b c).isSome) = Nat.toDigits b n := by
    rw [List.takeWhile_append_of_pos (isSome_of_mem_toDigits hb1 hb)]
    cases rest with
    | nil => simp
    | cons c rest => simp [hrest c rfl]
  have hzero : ¬ (allowZeroPrefix = false ∧ (Nat.toDigits b n).head? = some '0' ∧ 1 < (Nat.toDigits b n).length) := by
    rintro ⟨-, hhead, hone⟩
    rw [eq_zero_of_head_toDigits hb1 hhead] at hone
    simp at hone
  simp only [readNumber, htake, foldl_toDigits hb1 hb]
  rw [if_neg, if_neg hzero, List.drop_left]
  simp [hlen, hmax]

end

/-! ## IPv4 -/

theorem Ipv4Addr.display_new (w x y z : UInt8) : (Ipv4Addr.new w x y z).display.toList =
    Nat.toDigits 10 w.toNat ++ '.' :: (Nat.toDigits 10 x.toNat ++ '.' :: (Nat.toDigits 10 y.toNat ++
      '.' :: Nat.toDigits 10 z.toNat)) := by
  simp [display, new]

/-- **An IPv4 address is read as it was written**, whatever follows that is no digit. -/
theorem readIpv4Addr_display (a : Ipv4Addr) {rest : List Char} (hrest : ∀ c ∈ rest.head?, toDigit 10 c = none) :
    readIpv4Addr (a.display.toList ++ rest) = some (a, rest) := by
  obtain ⟨⟨⟨l⟩, hl⟩⟩ := a
  match l, hl with
  | [w, x, y, z], _ =>
    have hoctet : ∀ (o : UInt8) {rest : List Char}, (∀ c ∈ rest.head?, toDigit 10 c = none) →
        readNumber 10 3 255 false (Nat.toDigits 10 o.toNat ++ rest) = some (o.toNat, rest) := by
      intro o rest hrest
      have ho := o.toNat_lt
      refine readNumber_toDigits (by decide) (by decide) false ?_ (by omega) hrest
      rw [Nat.length_toDigits_le_iff (by decide) (by decide)]
      omega
    have hdot : ∀ {rest : List Char}, ∀ c ∈ ('.' :: rest).head?, toDigit 10 c = none := by
      intro rest c hc
      obtain rfl := Option.some.inj hc
      rfl
    show readIpv4Addr ((Ipv4Addr.new w x y z).display.toList ++ rest) = some (Ipv4Addr.new w x y z, rest)
    rw [Ipv4Addr.display_new]
    simp only [List.append_assoc, List.cons_append, readIpv4Addr, readSeparator, lt_irrefl, if_false, hoctet w hdot]
    simp [readGivenChar, hoctet x hdot, hoctet y hdot, hoctet z hrest]

/-! ## Groups -/

/-- Groups, each after a colon. -/
def colonGroups (gs : List UInt16) : List Char := gs.flatMap fun g => ':' :: Nat.toDigits 16 g.toNat

/-- Groups with colons between them. -/
def groupsText : List UInt16 → List Char
  | [] => []
  | g :: gs => Nat.toDigits 16 g.toNat ++ colonGroups gs

/-- The groups end here: with the text, or with the two colons that stand for zeros. -/
def Stops (rest : List Char) : Prop := rest = [] ∨ ∃ more, rest = ':' :: ':' :: more

/-- There is no more of a group. -/
def GroupEnds (rest : List Char) : Prop := ∀ c ∈ rest.head?, c = ':'

theorem displayGroups_toList (gs : List UInt16) : (Ipv6Addr.displayGroups gs).toList = groupsText gs := by
  cases gs with
  | nil => rfl
  | cons g gs =>
    rw [groupsText]
    induction gs generalizing g with
    | nil => simp [Ipv6Addr.displayGroups, colonGroups]
    | cons h gs ih =>
      have hcons : Ipv6Addr.displayGroups (g :: h :: gs) =
          String.ofList (Nat.toDigits 16 g.toNat) ++ ":" ++ Ipv6Addr.displayGroups (h :: gs) := by
        simp [Ipv6Addr.displayGroups, String.intercalate_cons_cons]
      rw [hcons, String.toList_append, String.toList_append, ih h]
      simp [colonGroups]

section

variable {rest : List Char}

theorem Stops.groupEnds (h : Stops rest) : GroupEnds rest := by
  rcases h with rfl | ⟨more, rfl⟩
  · exact fun c hc => nomatch hc
  · intro c hc
    exact (Option.some.inj hc).symm

theorem GroupEnds.colonGroups (h : GroupEnds rest) (gs : List UInt16) : GroupEnds (colonGroups gs ++ rest) := by
  cases gs with
  | nil => exact h
  | cons g gs =>
    intro c hc
    exact (Option.some.inj hc).symm

theorem GroupEnds.toDigit (h : GroupEnds rest) (b : ℕ) : ∀ c ∈ rest.head?, toDigit b c = none := by
  intro c hc
  obtain rfl := h c hc
  simp [RXCore.toDigit]

theorem readNumber_none {b maxDigits max : ℕ} (allowZeroPrefix : Bool) (h : ∀ c ∈ rest.head?, toDigit b c = none) :
    readNumber b maxDigits max allowZeroPrefix rest = none := by
  have htake : rest.takeWhile (fun c => (toDigit b c).isSome) = [] := by
    cases rest with
    | nil => rfl
    | cons c rest => simp [h c rfl]
  simp [readNumber, htake]

theorem head?_dropWhile_ne {p : Char → Bool} {c : Char} {ds : List Char} (hds : c ∉ ds) (hrest : rest.head? ≠ some c)
    (hp : ∀ d ∈ rest.head?, p d = false) : ((ds ++ rest).dropWhile p).head? ≠ some c := by
  induction ds with
  | nil =>
    cases rest with
    | nil => simp
    | cons d rest =>
      rw [List.nil_append, List.dropWhile_cons_of_neg (by simp [hp d rfl])]
      exact hrest
  | cons d ds ih =>
    rw [List.mem_cons, not_or] at hds
    rw [List.cons_append]
    by_cases hd : p d = true
    · rw [List.dropWhile_cons_of_pos hd]
      exact ih hds.2
    · rw [List.dropWhile_cons_of_neg hd]
      simpa using Ne.symm hds.1

/-- No IPv4 address begins where a number does not end with a dot. -/
theorem readIpv4Addr_none {s : List Char}
    (h : (s.dropWhile fun c => (toDigit 10 c).isSome).head? ≠ some '.') : readIpv4Addr s = none := by
  have hdrop : s.drop (s.takeWhile fun c => (toDigit 10 c).isSome).length =
      s.dropWhile fun c => (toDigit 10 c).isSome := by
    have hsplit : (s.takeWhile fun c => (toDigit 10 c).isSome) ++ (s.dropWhile fun c => (toDigit 10 c).isSome) = s :=
      List.takeWhile_append_dropWhile
    nth_rewrite 2 [← hsplit]
    exact List.drop_left
  have hnext : ∀ v s', readNumber 10 3 255 false s = some (v, s') → readGivenChar '.' s' = none := by
    intro v s' hread
    simp only [readNumber] at hread
    split_ifs at hread
    obtain ⟨-, rfl⟩ := Prod.mk.inj (Option.some.inj hread)
    rw [hdrop]
    cases hs : s.dropWhile (fun c => (toDigit 10 c).isSome) with
    | nil => rfl
    | cons c cs =>
      rw [hs] at h
      rw [readGivenChar, if_neg (by simpa using h)]
  rw [readIpv4Addr, readSeparator, if_neg (lt_irrefl 0)]
  cases hread : readNumber 10 3 255 false s with
  | none => rfl
  | some r =>
    obtain ⟨v, s'⟩ := r
    simp [readSeparator, hnext v s' hread]

theorem dot_notMem_toDigits (n : ℕ) : '.' ∉ Nat.toDigits 16 n := by
  intro hdot
  have := isSome_of_mem_toDigits (by decide) (by decide) '.' hdot
  simp [toDigit] at this

/-- No IPv4 address begins where a colon ends what has no dot. -/
theorem readIpv4Addr_text {ds : List Char} (hds : '.' ∉ ds) (h : GroupEnds rest) : readIpv4Addr (ds ++ rest) = none := by
  apply readIpv4Addr_none
  refine head?_dropWhile_ne hds (fun hdot => absurd (h '.' hdot) (by decide)) fun d hd => ?_
  rw [h.toDigit 10 d hd]
  rfl

/-- **Groups are no IPv4 address.** -/
theorem readIpv4Addr_groups (gs : List UInt16) (hrest : Stops rest) : readIpv4Addr (groupsText gs ++ rest) = none := by
  cases gs with
  | nil => exact readIpv4Addr_text List.not_mem_nil hrest.groupEnds
  | cons g gs =>
    rw [groupsText, List.append_assoc]
    exact readIpv4Addr_text (dot_notMem_toDigits _) (hrest.groupEnds.colonGroups gs)

end

/-! ## Reading groups -/

section

variable {rest : List Char} {i left : ℕ}

/-- What a separator stands before is read after it. -/
theorem readSeparator_text {α : Type} (sep : Char) (i : ℕ) (inner : List Char → Option (α × List Char)) (s : List Char) :
    readSeparator sep i inner ((if 0 < i then [sep] else []) ++ s) = inner s := by
  rw [readSeparator]
  split_ifs <;> simp [readGivenChar]

/-- **A group is read to its end.** -/
theorem readGroups_cons (g : UInt16) (hrest : GroupEnds rest) :
    readGroups (left + 1) i ((if 0 < i then [':'] else []) ++ (Nat.toDigits 16 g.toNat ++ rest)) =
      (g :: (readGroups left (i + 1) rest).1, (readGroups left (i + 1) rest).2) := by
  have hg := g.toNat_lt
  have hipv4 := readIpv4Addr_text (dot_notMem_toDigits g.toNat) hrest
  have hnumber : readNumber 16 4 65535 true (Nat.toDigits 16 g.toNat ++ rest) = some (g.toNat, rest) := by
    refine readNumber_toDigits (by decide) (by decide) true ?_ (by omega) (hrest.toDigit 16)
    rw [Nat.length_toDigits_le_iff (by decide) (by decide)]
    omega
  rw [readGroups]
  simp only [readSeparator_text, hipv4, hnumber, ite_self, UInt16.ofNat_toNat]

/-- Where no separator leads to a number, no group is read. -/
theorem readGroups_nothing (hsep : ∀ {α : Type} {inner : List Char → Option (α × List Char)},
    (∀ s, GroupEnds s → inner s = none) → readSeparator ':' i inner rest = none) :
    readGroups left i rest = ([], false, rest) := by
  cases left with
  | zero => rfl
  | succ left =>
    have hipv4 : readSeparator ':' i readIpv4Addr rest = none :=
      hsep fun s hs => readIpv4Addr_text List.not_mem_nil hs
    have hnumber : readSeparator ':' i (readNumber 16 4 65535 true) rest = none :=
      hsep fun s hs => readNumber_none true (hs.toDigit 16)
    rw [readGroups]
    simp only [hipv4, hnumber, ite_self]

/-- No group begins where the groups end. -/
theorem readGroups_stop (hrest : Stops rest) : readGroups left i rest = ([], false, rest) := by
  refine readGroups_nothing fun {α inner} hinner => ?_
  rw [readSeparator]
  split_ifs
  · rcases hrest with rfl | ⟨more, rfl⟩
    · rfl
    · exact hinner (':' :: more) fun c hc => (Option.some.inj hc).symm
  · exact hinner rest hrest.groupEnds

/-- No group begins here, and none goes on. -/
def NoGroup (rest : List Char) : Prop := GroupEnds rest ∧ ∀ left i, readGroups left i rest = ([], false, rest)

theorem Stops.noGroup (h : Stops rest) : NoGroup rest := ⟨h.groupEnds, fun _ _ => readGroups_stop h⟩

/-- A colon with nothing after it. -/
theorem noGroup_colon : NoGroup [':'] := by
  have hends : GroupEnds [':'] := fun c hc => (Option.some.inj hc).symm
  refine ⟨hends, fun left i => readGroups_nothing fun {α inner} hinner => ?_⟩
  rw [readSeparator]
  split_ifs
  · exact hinner [] nofun
  · exact hinner [':'] hends

theorem readGroups_colonGroups {gs : List UInt16} (hlen : gs.length ≤ left) (hrest : NoGroup rest) :
    readGroups left (i + 1) (colonGroups gs ++ rest) = (gs, false, rest) := by
  induction gs generalizing left i with
  | nil => exact hrest.2 left (i + 1)
  | cons g gs ih =>
    obtain ⟨left, rfl⟩ : ∃ n, left = n + 1 := ⟨left - 1, by rw [List.length_cons] at hlen; omega⟩
    have htext : colonGroups (g :: gs) ++ rest =
        (if 0 < i + 1 then [':'] else []) ++ (Nat.toDigits 16 g.toNat ++ (colonGroups gs ++ rest)) := by
      simp [colonGroups]
    rw [htext, readGroups_cons g (hrest.1.colonGroups gs), ih (by simpa using hlen)]

/-- **Groups are read as they were written.** -/
theorem readGroups_text {gs : List UInt16} (hlen : gs.length ≤ left) (hrest : NoGroup rest) :
    readGroups left 0 (groupsText gs ++ rest) = (gs, false, rest) := by
  cases gs with
  | nil => exact hrest.2 left 0
  | cons g gs =>
    obtain ⟨left, rfl⟩ : ∃ n, left = n + 1 := ⟨left - 1, by rw [List.length_cons] at hlen; omega⟩
    have htext : groupsText (g :: gs) ++ rest =
        (if 0 < 0 then [':'] else []) ++ (Nat.toDigits 16 g.toNat ++ (colonGroups gs ++ rest)) := by
      simp [groupsText]
    rw [htext, readGroups_cons g (hrest.1.colonGroups gs), readGroups_colonGroups (by simpa using hlen) hrest]

end

/-! ## The longest run of zeros -/

/-- A run, by its start and its length, is a run of zeros. -/
def Zeros (gs : List UInt16) (run : ℕ × ℕ) : Prop :=
  ∃ before after, gs = before ++ List.replicate run.2 0 ++ after ∧ before.length = run.1

/-- A run of zeros, unless it is empty, at the end. -/
def EndsZeros (gs : List UInt16) (run : ℕ × ℕ) : Prop :=
  run.2 ≠ 0 → ∃ before, gs = before ++ List.replicate run.2 0 ∧ before.length = run.1

theorem Zeros.append {gs : List UInt16} {run : ℕ × ℕ} (h : Zeros gs run) (more : List UInt16) : Zeros (gs ++ more) run := by
  obtain ⟨before, after, rfl, hlen⟩ := h
  exact ⟨before, after ++ more, by simp only [List.append_assoc], hlen⟩

theorem EndsZeros.zero {gs : List UInt16} {run : ℕ × ℕ} (h : EndsZeros gs run) :
    EndsZeros (gs ++ [0]) (if run.2 = 0 then (gs.length, 1) else (run.1, run.2 + 1)) := by
  intro _
  by_cases hrun : run.2 = 0
  · rw [if_pos hrun]
    exact ⟨gs, rfl, rfl⟩
  · rw [if_neg hrun]
    obtain ⟨before, hgs, hlen⟩ := h hrun
    refine ⟨before, ?_, hlen⟩
    rw [hgs, List.append_assoc, List.replicate_succ']

/-- **The longest run of zeros is a run of zeros.** -/
theorem longestZeros_zeros {current longest : ℕ × ℕ} {pre : List UInt16} (gs : List UInt16)
    (hcurrent : EndsZeros pre current) (hlongest : Zeros pre longest) :
    Zeros (pre ++ gs) (Ipv6Addr.longestZeros pre.length current longest gs) := by
  induction gs generalizing pre current longest with
  | nil => simpa [Ipv6Addr.longestZeros] using hlongest
  | cons g gs ih =>
    have hpre : pre ++ g :: gs = (pre ++ [g]) ++ gs := by simp
    have hlen : pre.length + 1 = (pre ++ [g]).length := by simp
    rw [Ipv6Addr.longestZeros, hpre]
    by_cases hg : g = 0
    · rw [if_pos hg, hlen]
      subst hg
      have hnext := hcurrent.zero
      generalize (if current.2 = 0 then (pre.length, 1) else (current.1, current.2 + 1)) = next at hnext ⊢
      refine ih hnext ?_
      split_ifs with hlonger
      · obtain ⟨before, hgs, hbefore⟩ := hnext (by omega)
        exact ⟨before, [], by rw [List.append_nil, ← hgs], hbefore⟩
      · exact hlongest.append [0]
    · rw [if_neg hg, hlen]
      exact ih (fun h => absurd rfl h) (hlongest.append [g])

/-! ## IPv6 -/

theorem segments_getD (a : Ipv6Addr) :
    (⟨Vector.ofFn fun i : Fin 8 => a.segments.toList.getD i 0⟩ : Ipv6Addr) = a := by
  refine congrArg Ipv6Addr.mk (Vector.ext fun i hi => ?_)
  rw [Vector.getElem_ofFn, List.getD_eq_getElem _ _ (by simpa using hi)]
  rfl

/-- Eight groups are an address. -/
theorem readIpv6Addr_groups (a : Ipv6Addr) : readIpv6Addr (groupsText a.segments.toList) = some (a, []) := by
  have hread : readGroups 8 0 (groupsText a.segments.toList ++ []) = (a.segments.toList, false, []) :=
    readGroups_text (by simp) (Stops.noGroup (.inl rfl))
  rw [List.append_nil] at hread
  rw [readIpv6Addr, hread]
  simp only [Vector.length_toList, if_true, segments_getD]

/-- Two colons stand for the groups that are missing. -/
theorem readIpv6Addr_colons {a : Ipv6Addr} {s text : List Char} {before after : List UInt16} {ipv4 : Bool}
    (hbefore : readGroups 8 0 s = (before, false, ':' :: ':' :: text))
    (hafter : readGroups (7 - before.length) 0 text = (after, ipv4, [])) (hshort : before.length ≠ 8)
    (h : a.segments.toList = before ++ List.replicate (8 - before.length - after.length) 0 ++ after) :
    readIpv6Addr s = some (a, []) := by
  have hread : readIpv6Addr s = some (⟨Vector.ofFn fun i : Fin 8 =>
      (before ++ List.replicate (8 - before.length - after.length) 0 ++ after).getD i 0⟩, []) := by
    rw [readIpv6Addr, hbefore]
    simp only
    rw [if_neg hshort, if_neg Bool.false_ne_true]
    simp only [readGivenChar, if_true, Option.bind_eq_bind, Option.bind_some, hafter]
    rfl
  rw [hread, ← h, segments_getD]

theorem readIpv6Addr_compressed {a : Ipv6Addr} {before after : List UInt16} {n : ℕ} (hn : 0 < n)
    (h : a.segments.toList = before ++ List.replicate n 0 ++ after) :
    readIpv6Addr (groupsText before ++ ':' :: ':' :: groupsText after) = some (a, []) := by
  have hlen : before.length + n + after.length = 8 := by
    have := congrArg List.length h
    simpa [add_assoc] using this.symm
  have hmissing : 8 - before.length - after.length = n := by omega
  have hbefore : readGroups 8 0 (groupsText before ++ ':' :: ':' :: groupsText after) =
      (before, false, ':' :: ':' :: groupsText after) :=
    readGroups_text (by omega) (Stops.noGroup (.inr ⟨groupsText after, rfl⟩))
  have hafter : readGroups (7 - before.length) 0 (groupsText after ++ []) = (after, false, []) :=
    readGroups_text (by omega) (Stops.noGroup (.inl rfl))
  rw [List.append_nil] at hafter
  exact readIpv6Addr_colons hbefore hafter (by omega) (by rw [hmissing, h])

/-- A mapped address ends with its IPv4 address. -/
theorem toIpv4Mapped_segments {a : Ipv6Addr} {v4 : Ipv4Addr} (h : a.toIpv4Mapped = some v4) :
    a.segments.toList = [0, 0, 0, 0, 0, 0xffff] ++ ipv4Groups v4 := by
  simp only [Ipv6Addr.toIpv4Mapped, Ipv6Addr.toIpv4] at h
  split_ifs at h with hmapped hzeros
  obtain rfl := Option.some.inj h
  obtain ⟨⟨⟨l⟩, hl⟩⟩ := a
  match l, hl with
  | [s0, s1, s2, s3, s4, s5, s6, s7], _ =>
    have h5 : s5 = 0xffff := hmapped
    have h04 : [s0, s1, s2, s3, s4] = [0, 0, 0, 0, 0] := hzeros.1
    obtain ⟨rfl, rfl, rfl, rfl, rfl⟩ : s0 = 0 ∧ s1 = 0 ∧ s2 = 0 ∧ s3 = 0 ∧ s4 = 0 := by simpa using h04
    have h6 := Ipv6Addr.ofGroup s6
    have h7 := Ipv6Addr.ofGroup s7
    show [0, 0, 0, 0, 0, s5, s6, s7] = _
    rw [h5]
    exact congrArg₂ (fun x y => [0, 0, 0, 0, 0, 0xffff, x, y]) h6.symm h7.symm

theorem readIpv6Addr_mapped {a : Ipv6Addr} {v4 : Ipv4Addr} (h : a.toIpv4Mapped = some v4) :
    readIpv6Addr (':' :: ':' :: (Nat.toDigits 16 65535 ++ ':' :: v4.display.toList)) = some (a, []) := by
  have hipv4 : readIpv4Addr (v4.display.toList ++ []) = some (v4, []) := readIpv4Addr_display v4 fun c hc => nomatch hc
  rw [List.append_nil] at hipv4
  have hcolon : GroupEnds (':' :: v4.display.toList) := fun c hc => (Option.some.inj hc).symm
  have hlast : readGroups 6 1 (':' :: v4.display.toList) = (ipv4Groups v4, true, []) := by
    simp [readGroups, readSeparator, readGivenChar, hipv4]
  have htail : readGroups 7 0 (Nat.toDigits 16 65535 ++ ':' :: v4.display.toList) =
      (0xffff :: ipv4Groups v4, true, []) := by
    have hcons : readGroups 7 0 (Nat.toDigits 16 65535 ++ ':' :: v4.display.toList) =
        (0xffff :: (readGroups 6 1 (':' :: v4.display.toList)).1, (readGroups 6 1 (':' :: v4.display.toList)).2) :=
      readGroups_cons 0xffff hcolon
    rw [hcons, hlast]
  refine readIpv6Addr_colons (readGroups_stop (.inr ⟨_, rfl⟩)) htail (by decide) ?_
  rw [toIpv4Mapped_segments h]
  rfl

/-! ## All addresses -/

/-- The text of an address that maps no IPv4 address: two colons for a run of zeros, or all eight groups. -/
theorem display_cases (a : Ipv6Addr) (hmapped : a.toIpv4Mapped = none) :
    (∃ before after n, Ipv6Addr.longestZeros 0 (0, 0) (0, 0) a.segments.toList = (before.length, n) ∧ 1 < n ∧
      a.segments.toList = before ++ List.replicate n 0 ++ after ∧
      a.display.toList = groupsText before ++ ':' :: ':' :: groupsText after) ∨
    ((Ipv6Addr.longestZeros 0 (0, 0) (0, 0) a.segments.toList).2 ≤ 1 ∧
      a.display.toList = groupsText a.segments.toList) := by
  have hends : EndsZeros [] (0, 0) := fun h => absurd rfl h
  have hzeros : Zeros a.segments.toList (Ipv6Addr.longestZeros 0 (0, 0) (0, 0) a.segments.toList) :=
    longestZeros_zeros _ hends ⟨[], [], rfl, rfl⟩
  rw [Ipv6Addr.display, hmapped]
  rcases hrun : Ipv6Addr.longestZeros 0 (0, 0) (0, 0) a.segments.toList with ⟨start, len⟩
  rw [hrun] at hzeros
  obtain ⟨before, after, hsegments, rfl⟩ := hzeros
  simp only [hrun]
  by_cases hlen : 1 < len
  · have hbefore : a.segments.toList.take before.length = before := by
      rw [hsegments, List.append_assoc, List.take_left]
    have hafter : a.segments.toList.drop (before.length + len) = after := by
      have hcount : before.length + len = (before ++ List.replicate len (0 : UInt16)).length := by simp
      rw [hsegments, hcount, List.drop_left]
    rw [if_pos hlen, hbefore, hafter]
    exact .inl ⟨before, after, len, rfl, hlen, hsegments, by simp [displayGroups_toList]⟩
  · rw [if_neg hlen, displayGroups_toList]
    exact .inr ⟨by omega, rfl⟩

theorem display_mapped {a : Ipv6Addr} {v4 : Ipv4Addr} (h : a.toIpv4Mapped = some v4) :
    a.display.toList = ':' :: ':' :: (Nat.toDigits 16 65535 ++ ':' :: v4.display.toList) := by
  rw [Ipv6Addr.display, h]
  simp only [String.toList_append]
  rfl

theorem readIpv6Addr_display (a : Ipv6Addr) :
    readIpv4Addr a.display.toList = none ∧ readIpv6Addr a.display.toList = some (a, []) := by
  cases hmapped : a.toIpv4Mapped with
  | some v4 =>
    rw [display_mapped hmapped]
    exact ⟨readIpv4Addr_text List.not_mem_nil fun c hc => (Option.some.inj hc).symm, readIpv6Addr_mapped hmapped⟩
  | none =>
    obtain ⟨before, after, n, -, hn, hsegments, htext⟩ | ⟨-, htext⟩ := display_cases a hmapped
    · rw [htext]
      exact ⟨readIpv4Addr_groups before (.inr ⟨_, rfl⟩), readIpv6Addr_compressed (by omega) hsegments⟩
    · have hnone : readIpv4Addr (groupsText a.segments.toList ++ []) = none := readIpv4Addr_groups _ (.inl rfl)
      rw [List.append_nil] at hnone
      rw [htext]
      exact ⟨hnone, readIpv6Addr_groups a⟩

/-- **An address is read as it was written.** -/
theorem parseIpAddr_display (a : IpAddr) : parseIpAddr a.display = some a := by
  cases a with
  | v4 a =>
    have hread : readIpv4Addr (a.display.toList ++ []) = some (a, []) := readIpv4Addr_display a fun c hc => nomatch hc
    rw [List.append_nil] at hread
    simp only [parseIpAddr, IpAddr.display, hread]
  | v6 a =>
    obtain ⟨hipv4, hread⟩ := readIpv6Addr_display a
    simp only [parseIpAddr, IpAddr.display, hipv4, hread, Option.map_some]

/-! ## The characters of an address -/

def displayChars : List Char :=
  ['0', '1', '2', '3', '4', '5', '6', '7', '8', '9', 'a', 'b', 'c', 'd', 'e', 'f', '.', ':']

theorem mem_displayChars_digits {b n : ℕ} (hb1 : 1 < b) (hb : b ≤ 16) : ∀ c ∈ Nat.toDigits b n, c ∈ displayChars := by
  have hall : ∀ d : Fin 16, Nat.digitChar (d : ℕ) ∈ displayChars := by decide
  intro c hc
  obtain ⟨d, hd, rfl⟩ := exists_digitChar hb1 c hc
  exact hall ⟨d, by omega⟩

theorem mem_displayChars_ipv4 (a : Ipv4Addr) : ∀ c ∈ a.display.toList, c ∈ displayChars := by
  obtain ⟨⟨⟨l⟩, hl⟩⟩ := a
  match l, hl with
  | [w, x, y, z], _ =>
    intro c hc
    rw [show (⟨⟨⟨[w, x, y, z]⟩, _⟩⟩ : Ipv4Addr) = Ipv4Addr.new w x y z from rfl, Ipv4Addr.display_new] at hc
    simp only [List.mem_append, List.mem_cons] at hc
    have hdigit : ∀ n : ℕ, c ∈ Nat.toDigits 10 n → c ∈ displayChars :=
      fun n => mem_displayChars_digits (by decide) (by decide) c
    have hdot : '.' ∈ displayChars := by decide
    obtain hc | rfl | hc | rfl | hc | rfl | hc := hc
    · exact hdigit _ hc
    · exact hdot
    · exact hdigit _ hc
    · exact hdot
    · exact hdigit _ hc
    · exact hdot
    · exact hdigit _ hc

theorem mem_displayChars_groups (gs : List UInt16) : ∀ c ∈ groupsText gs, c ∈ displayChars := by
  have hdigit : ∀ g : UInt16, ∀ c ∈ Nat.toDigits 16 g.toNat, c ∈ displayChars :=
    fun g => mem_displayChars_digits (by decide) le_rfl
  cases gs with
  | nil => exact nofun
  | cons g gs =>
    intro c hc
    obtain hc | hc := List.mem_append.mp hc
    · exact hdigit g c hc
    · obtain ⟨g', -, hc⟩ := List.mem_flatMap.mp hc
      obtain rfl | hc := List.mem_cons.mp hc
      · decide
      · exact hdigit g' c hc

/-- **An address is written in lower-case digits, dots and colons.** -/
theorem mem_displayChars (a : IpAddr) : ∀ c ∈ a.display.toList, c ∈ displayChars := by
  cases a with
  | v4 a => exact mem_displayChars_ipv4 a
  | v6 a =>
    intro c hc
    rw [IpAddr.display, Ipv6Addr.display] at hc
    split at hc
    · next v4 _ =>
      rw [String.toList_append] at hc
      obtain hc | hc := List.mem_append.mp hc
      · obtain rfl | rfl | rfl : c = ':' ∨ c = 'f' ∨ c = ':' := by simpa using hc
        · decide
        · decide
        · decide
      · exact mem_displayChars_ipv4 v4 c hc
    · dsimp only at hc
      split_ifs at hc
      · rw [String.toList_append, String.toList_append, displayGroups_toList, displayGroups_toList] at hc
        obtain hc | hc := List.mem_append.mp hc
        · obtain hc | hc := List.mem_append.mp hc
          · exact mem_displayChars_groups _ c hc
          · obtain rfl : c = ':' := by simpa using hc
            decide
        · exact mem_displayChars_groups _ c hc
      · rw [displayGroups_toList] at hc
        exact mem_displayChars_groups _ c hc

end RXCore
