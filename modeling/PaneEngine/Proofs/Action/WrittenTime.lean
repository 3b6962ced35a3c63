import PaneEngine.Proofs.Action.Actionable

/-!
# Times as they are written

A time can be written in more ways than one: zeros may stand before its digits
and an `s` behind them.  Reading takes exactly these spellings, and a value that
does not fit into 32 bits is refused rather than cut down.  A route to a second of
a video shows the second in the spelling without zeros and with an `s`, which is
read as the same second.

## Main definitions

* `Spells` — the spellings of a time;
* `ShowsTime` — the time that the path of a route shows.

## Main results

* `isTime_iff_spells` — the texts that are times are the spellings of their values;
* `showsTime_videoRoute` — the path to a second of a video shows that second and no other;
* `times_exact` — times are read exactly, also those that routes show.
-/

namespace PaneEngine.Action

/-- A spelling of a time: zeros, the digits of its value, and at most an `s`. -/
def Spells (s : String) (t : Nat) : Prop :=
  ∃ zeros unit, s = String.ofList (List.replicate zeros '0') ++ toString t ++ unit ∧
    (unit = "" ∨ unit = "s")

/-- What the path of a route shows between its last `?t=` and the `#bunny` at its end. -/
def ShowsTime (path time : String) : Prop :=
  ∃ front, path = front ++ "?t=" ++ time ++ "#bunny" ∧ '?' ∉ time.toList

/-! ## Spellings -/

theorem decimal_eq_ofDigitChars (ds : List Char) : decimal ds = Nat.ofDigitChars 10 ds 0 := by
  rw [← foldl_eq_decimal, Nat.ofDigitChars_eq_foldl]
  refine congrArg (fun step => ds.foldl step 0) ?_
  funext n c
  rw [Nat.mul_comm]

/-- Zeros before the digits do not count. -/
theorem decimal_zeros_toDigits (zeros t : Nat) :
    decimal (List.replicate zeros '0' ++ Nat.toDigits 10 t) = t := by
  rw [decimal_eq_ofDigitChars, Nat.ofDigitChars_append, Nat.ofDigitChars_replicate_zero,
    Nat.mul_zero, Nat.ofDigitChars_ten_toDigits]

theorem toDigits_of_isDigit {c : Char} (h : c.isDigit = true) :
    c.toNat - '0'.toNat < 10 ∧ Nat.toDigits 10 (c.toNat - '0'.toNat) = [c] := by
  obtain ⟨hLow, hHigh⟩ : 48 ≤ c.toNat ∧ c.toNat ≤ 57 := by
    simpa [Char.isDigit, UInt32.le_iff_toNat_le] using h
  have hSmall : c.toNat - '0'.toNat < 10 := by
    show c.toNat - 48 < 10
    omega
  refine ⟨hSmall, ?_⟩
  rw [Nat.toDigits_of_lt_base hSmall]
  refine congrArg (· :: []) (Char.toNat_inj.1 ?_)
  rw [Nat.toNat_digitChar_of_lt_ten hSmall]
  show 48 + (c.toNat - 48) = c.toNat
  omega

/-- Digits are those of their value behind zeros. -/
theorem exists_zeros_toDigits {ds : List Char} (hSome : ds ≠ [])
    (hDigits : ∀ c ∈ ds, c.isDigit = true) :
    ∃ zeros, ds = List.replicate zeros '0' ++ Nat.toDigits 10 (decimal ds) := by
  induction ds using List.reverseRecOn with
  | nil => exact absurd rfl hSome
  | append_singleton ds c ih =>
      obtain ⟨hSmall, hLast⟩ := toDigits_of_isDigit (hDigits c (by simp))
      rw [decimal_concat]
      by_cases hNil : ds = []
      · subst hNil
        refine ⟨0, ?_⟩
        show [c] = Nat.toDigits 10 (0 * 10 + (c.toNat - '0'.toNat))
        rw [Nat.zero_mul, Nat.zero_add, hLast]
      · obtain ⟨zeros, hFront⟩ := ih hNil fun d hMem => hDigits d (List.mem_append_left _ hMem)
        by_cases hZero : decimal ds = 0
        · -- All digits so far are zeros, the last of them the digit of the value.
          refine ⟨zeros + 1, ?_⟩
          rw [hZero, Nat.zero_mul, Nat.zero_add, hLast, List.replicate_succ', hFront, hZero,
            Nat.toDigits_zero]
        · refine ⟨zeros, ?_⟩
          have hDigit := Nat.toDigits_append_toDigits (b := 10) (by decide)
            (Nat.pos_of_ne_zero hZero) hSmall
          rw [Nat.mul_comm, ← hDigit, hLast, ← List.append_assoc, ← hFront]

/-- **The texts that are times are the spellings of their values.** -/
theorem isTime_iff_spells {s : String} {t : Nat} : IsTime s t ↔ Spells s t ∧ t < 2 ^ 32 := by
  constructor
  · rintro ⟨ds, rest, hText, hSome, hDigits, hRest, rfl, hSmall⟩
    obtain ⟨zeros, hZeros⟩ := exists_zeros_toDigits hSome hDigits
    refine ⟨⟨zeros, String.ofList rest, ?_, ?_⟩, hSmall⟩
    · refine String.toList_inj.1 ?_
      simp only [String.toList_append, String.toList_ofList, Nat.toString_eq_ofList_toDigits]
      rw [← hZeros, hText]
    · rcases hRest with rfl | rfl
      · exact .inl rfl
      · exact .inr rfl
  · rintro ⟨⟨zeros, unit, rfl, hUnit⟩, hSmall⟩
    refine ⟨List.replicate zeros '0' ++ Nat.toDigits 10 t, unit.toList, ?_, ?_, ?_, ?_,
      decimal_zeros_toDigits zeros t, hSmall⟩
    · simp only [String.toList_append, String.toList_ofList, Nat.toString_eq_ofList_toDigits]
    · simp [Nat.toDigits_ne_nil]
    · intro c hMem
      rcases List.mem_append.1 hMem with hZero | hDigit
      · rw [List.eq_of_mem_replicate hZero]
        rfl
      · exact Nat.isDigit_of_mem_toDigits (by decide) (by decide) hDigit
    · rcases hUnit with rfl | rfl
      · exact .inl rfl
      · exact .inr rfl

/-- A value that does not fit is refused. -/
theorem seconds?_of_large {ds : List Char} (hDigits : ∀ c ∈ ds, c.isDigit = true) {unit : String}
    (hUnit : unit = "" ∨ unit = "s") (hLarge : 2 ^ 32 ≤ decimal ds) :
    seconds? (String.ofList ds ++ unit) = none := by
  have hRest : unit.toList = [] ∨ unit.toList = ['s'] := by
    rcases hUnit with rfl | rfl
    · exact .inl rfl
    · exact .inr rfl
  rw [seconds?_eq, String.toList_append, String.toList_ofList, withoutUnit_parts hDigits hRest]
  refine if_neg ?_
  rintro ⟨-, -, hSmall⟩
  exact Nat.not_lt.2 hLarge hSmall

/-! ## Times in paths -/

/-- The parts behind the last occurrence of a character are the same. -/
theorem behind_last_inj {a : Char} {xs xs' ys ys' : List Char} (h : a ∉ ys) (h' : a ∉ ys')
    (hEq : xs ++ a :: ys = xs' ++ a :: ys') : ys = ys' := by
  have hReversed := congrArg List.reverse hEq
  simp only [List.reverse_append, List.reverse_cons, List.append_assoc,
    List.singleton_append] at hReversed
  have hSplit := congrArg (List.splitOn a) hReversed
  rw [List.splitOn_append_cons_self_of_not_mem (by simpa using h),
    List.splitOn_append_cons_self_of_not_mem (by simpa using h')] at hSplit
  exact List.reverse_inj.1 (List.cons.inj hSplit).1

theorem question_not_mem_shown (t : Nat) : '?' ∉ (toString t ++ "s").toList := by
  rw [String.toList_append, Nat.toString_eq_ofList_toDigits, String.toList_ofList, List.mem_append,
    not_or]
  refine ⟨?_, by decide⟩
  intro hMem
  have hDigit : '?'.isDigit = true := Nat.isDigit_of_mem_toDigits (by decide) (by decide) hMem
  exact absurd hDigit (by decide)

/-- The path to a second of a video shows that second and no other. -/
theorem showsTime_videoRoute (here : Page) (isContext : Bool) (slug : String) (t : Nat)
    (text : String) :
    ShowsTime (videoRoute here isContext slug t).path text ↔ text = toString t ++ "s" := by
  obtain ⟨root, hPath⟩ : ∃ root, (videoRoute here isContext slug t).path =
      root ++ "?t=" ++ (toString t ++ "s") ++ "#bunny" := by
    refine ⟨if isContext then "/context/" ++ slug
      else if slug = here.homeSlug then "/" else "/" ++ slug, ?_⟩
    simp only [videoRoute, String.append_assoc]
    rfl
  rw [hPath]
  constructor
  · rintro ⟨front, hFront, hText⟩
    have hChars := congrArg String.toList ((String.append_left_inj _).1 hFront)
    simp only [String.toList_append, List.append_assoc] at hChars
    have hShown : '?' ∉ 't' :: '=' :: (toString t ++ "s").toList := by
      simpa using question_not_mem_shown t
    have hText' : '?' ∉ 't' :: '=' :: text.toList := by simpa using hText
    have hBehind := behind_last_inj hShown hText' (by simpa using hChars)
    exact String.toList_inj.1 (List.cons.inj (List.cons.inj hBehind).2).2.symm
  · rintro rfl
    exact ⟨root, rfl, question_not_mem_shown t⟩

/-- A place that shows a video leads to the second that is given to it. -/
theorem Place.reached?_of_time {p : Place} (hVideo : p.showsVideo) (here : Page) (slug : String)
    {raw : String} {t : Nat} (hTime : seconds? raw = some t) (extra : List String) :
    ∃ isContext, p.reached? here (slug :: raw :: extra) =
      some (.internal (videoRoute here isContext slug t)) := by
  have hPaired := p.paired hVideo here (slug :: raw :: extra)
  obtain ⟨isContext, hCue⟩ : ∃ isContext,
      p.cue? (slug :: raw :: extra) = some ⟨t, none, some slug, isContext⟩ := by
    rcases hVideo with rfl | rfl <;> simp [cue?, hTime]
  rw [hCue] at hPaired
  obtain ⟨-, slug', hSlug, hTarget⟩ := hPaired.of_cue
  cases hSlug
  exact ⟨isContext, hTarget⟩

/-- **Times are read exactly.**  A text is read as a time exactly if it is digits with at most an
`s` behind them and their value has 32 bits; those are the spellings of the value, with any number
of zeros.  Digits with a larger value are refused.  And a `bunny` or `bunnyContext` with whatever
spelling of whatever time of 32 bits leads to a path that shows one time, which is read as the same
time again. -/
theorem times_exact :
    (∀ s t, seconds? s = some t ↔ IsTime s t) ∧
    (∀ s t, seconds? s = some t ↔ Spells s t ∧ t < 2 ^ 32) ∧
    (∀ (ds : List Char) (unit : String), (∀ c ∈ ds, c.isDigit = true) → unit = "" ∨ unit = "s" →
      2 ^ 32 ≤ decimal ds → seconds? (String.ofList ds ++ unit) = none) ∧
    ∀ (here : Page) (p : Place) (slug raw : String) (t : Nat) (first : Param)
      (extra : List String) (further : List Param),
      p.showsVideo → Spells raw t → t < 2 ^ 32 → first.words = p.name :: slug :: raw :: extra →
      ∃ target time, target? here (.call "goto" (first :: further)) = some target ∧
        (∀ text, ShowsTime target.href text ↔ text = time) ∧ seconds? time = some t := by
  have hSpelled : ∀ s t, seconds? s = some t ↔ Spells s t ∧ t < 2 ^ 32 := fun s t =>
    seconds?_eq_some_iff.trans isTime_iff_spells
  refine ⟨fun s t => seconds?_eq_some_iff, hSpelled, ?_, ?_⟩
  · intro ds unit hDigits hUnit hLarge
    exact seconds?_of_large hDigits hUnit hLarge
  · intro here p slug raw t first extra further hVideo hRaw hSmall hWords
    have hGoto := goto?_eq_some_iff.2 ⟨rfl, first, further, rfl, hWords⟩
    obtain ⟨isContext, hReached⟩ :=
      p.reached?_of_time hVideo here slug ((hSpelled raw t).2 ⟨hRaw, hSmall⟩) extra
    refine ⟨_, toString t ++ "s", (target?_of_goto hGoto here).trans hReached,
      showsTime_videoRoute here isContext slug t, ?_⟩
    refine (hSpelled _ t).2 ⟨⟨0, "s", ?_, .inr rfl⟩, hSmall⟩
    rw [List.replicate_zero, String.ofList_nil, String.empty_append]

/-- The largest time behind zeros, for a page whose name looks like a time itself; the next value is
refused. -/
theorem times_exact_largest :
    let first : Param := .tuple ["bunnyContext", "x?t=1s", "0004294967295s", "again"]
    seconds? "4294967296s" = none ∧
    ∃ target time, target? contextPage (.call "goto" [first]) = some target ∧
      target.href = "/context/x?t=1s?t=4294967295s#bunny" ∧
      (∀ text, ShowsTime target.href text ↔ text = time) ∧ seconds? time = some 4294967295 := by
  intro first
  obtain ⟨-, -, hLarge, hRoute⟩ := times_exact
  obtain ⟨target, time, hTarget, hShows, hTime⟩ := hRoute contextPage .bunnyContext "x?t=1s"
    "0004294967295s" 4294967295 first ["again"] [] (.inr rfl) ⟨3, "s", by decide, .inr rfl⟩
    (by decide) rfl
  have hHref : (target? contextPage (.call "goto" [first])).map Target.href =
      some "/context/x?t=1s?t=4294967295s#bunny" := by
    decide +kernel
  rw [hTarget] at hHref
  have hDigits : ∀ c ∈ "4294967296".toList, c.isDigit = true := List.all_eq_true.1 (by decide)
  exact ⟨hLarge "4294967296".toList "s" hDigits (.inr rfl) (by decide), target, time, hTarget,
    Option.some.inj hHref, hShows, hTime⟩

end PaneEngine.Action
