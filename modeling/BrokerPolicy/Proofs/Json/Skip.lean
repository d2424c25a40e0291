import Mathlib.Tactic
import BrokerPolicy.Json.Record

/-!
What can be read can be passed over.

The reader of values recurses on the depth and knows what it reads, the skipper goes along the text
with the brackets that are open and knows nothing else. `Skips cs rest` says that the skipper gets
from `cs` to `rest` as over one value, in some number of steps and no more than there are characters
between the two; `SkipsMore` says so of what follows an item up to the closing bracket. Steps add up
(`skipsMore_readMore`), so by induction on the depth every value that is read is passed over
(`skips_readValue`). The skipper is given more steps than the text has characters, so it comes to
the end of the value: `skipValue_of_readValue`.
-/

namespace BrokerPolicy.Json

variable {cs rest : List Char}

lemma length_skipSpace_le (cs : List Char) : (skipSpace cs).length ≤ cs.length :=
  (List.dropWhile_suffix isSpace).length_le

lemma length_lt_of_skipSpace {c : Char} {r : List Char} (h : skipSpace cs = c :: r) :
    r.length < cs.length := by
  have hle := length_skipSpace_le cs
  rw [h, List.length_cons] at hle
  omega

/-! ### What is neither an array nor an object -/

/-- Reading digits takes a character at least. -/
lemma length_readDigits {ds : List Char} (h : readDigits cs = some (ds, rest)) :
    rest.length < cs.length := by
  have hsplit :=
    congrArg List.length (List.takeWhile_append_dropWhile (p := Char.isDigit) (l := cs))
  rw [List.length_append] at hsplit
  cases htake : cs.takeWhile Char.isDigit with
  | nil => simp [readDigits, htake] at h
  | cons d ds' =>
      obtain ⟨-, rfl⟩ : d :: ds' = ds ∧ cs.dropWhile Char.isDigit = rest := by
        simpa [readDigits, htake] using h
      rw [htake, List.length_cons] at hsplit
      omega

/-- What is done with a result does not change what is left of the text. -/
lemma exists_read {α β : Type} {read : Reader α} {f : α → β} {y : β}
    (h : (do let (x, r) ← read cs; return (f x, r)) = some (y, rest)) :
    ∃ x, read cs = some (x, rest) ∧ f x = y := by
  obtain ⟨⟨x, r⟩, hx, heq⟩ := Option.bind_eq_some_iff.1 h
  obtain ⟨hfx, rfl⟩ := Prod.mk.inj (Option.some.inj heq)
  exact ⟨x, hx, hfx⟩

lemma length_readFraction {ds : Option (List Char)} (h : readFraction cs = some (ds, rest)) :
    rest.length ≤ cs.length := by
  rw [readFraction.eq_def] at h
  split at h
  · obtain ⟨ds, hds, -⟩ := exists_read h
    exact (Nat.le_of_lt (length_readDigits hds)).trans (Nat.le_succ _)
  · obtain ⟨-, rfl⟩ := Prod.mk.inj (Option.some.inj h)
    exact le_rfl

lemma length_readPower {n : ℤ} (h : readPower cs = some (n, rest)) : rest.length < cs.length := by
  rw [readPower.eq_def] at h
  split at h
  · obtain ⟨ds, hds, -⟩ := exists_read (f := fun ds => (Text.decimalValue ds : ℤ)) h
    exact (length_readDigits hds).trans (Nat.lt_succ_self _)
  · obtain ⟨ds, hds, -⟩ := exists_read (f := fun ds => -(Text.decimalValue ds : ℤ)) h
    exact (length_readDigits hds).trans (Nat.lt_succ_self _)
  · obtain ⟨ds, hds, -⟩ := exists_read (f := fun ds => (Text.decimalValue ds : ℤ)) h
    exact length_readDigits hds

lemma length_readExponent {n : Option ℤ} (h : readExponent cs = some (n, rest)) :
    rest.length ≤ cs.length := by
  rw [readExponent.eq_def] at h
  split at h
  · obtain ⟨n, hn, -⟩ := exists_read h
    exact (Nat.le_of_lt (length_readPower hn)).trans (Nat.le_succ _)
  · obtain ⟨n, hn, -⟩ := exists_read h
    exact (Nat.le_of_lt (length_readPower hn)).trans (Nat.le_succ _)
  · obtain ⟨-, rfl⟩ := Prod.mk.inj (Option.some.inj h)
    exact le_rfl

lemma length_readUnsigned {negative : Bool} {l : Literal}
    (h : readUnsigned negative cs = some (l, rest)) : rest.length < cs.length := by
  simp only [readUnsigned, readWhole, Option.bind_eq_bind, Option.bind_eq_some_iff,
    Option.pure_def, Option.some.injEq, Prod.mk.injEq, Prod.exists] at h
  obtain ⟨whole, r, ⟨ds, r', hds, hwhole⟩, fraction, r'', hfraction, exponent, r''', hexponent, -,
    rfl⟩ := h
  split at hwhole
  · cases hwhole
  · obtain ⟨-, rfl⟩ := Prod.mk.inj (Option.some.inj hwhole)
    have hlt := length_readDigits hds
    have hle := length_readFraction hfraction
    have hle' := length_readExponent hexponent
    omega

lemma length_readLiteral {l : Literal} (h : readLiteral cs = some (l, rest)) :
    rest.length < cs.length := by
  rw [readLiteral.eq_def] at h
  split at h
  · have hlt := length_readUnsigned h
    rw [List.length_cons]
    omega
  · exact length_readUnsigned h

lemma exists_of_map_read {α β : Type} {x : Option (α × List Char)} {f : α → β} {y : β}
    (h : (x.map fun (a, r) => (f a, r)) = some (y, rest)) : ∃ a, x = some (a, rest) := by
  obtain ⟨⟨a, r⟩, hx, heq⟩ := Option.map_eq_some_iff.1 h
  obtain ⟨-, rfl⟩ := Prod.mk.inj heq
  exact ⟨a, hx⟩

/-- A string that is read is passed over. -/
lemma skipChars_of_readChars {s : List Char} (h : readChars cs = some (s, rest)) :
    skipChars cs = some rest ∧ rest.length < cs.length := by
  fun_induction readChars cs generalizing s rest with
  | case2 r =>
      obtain ⟨-, rfl⟩ := Prod.mk.inj (Option.some.inj h)
      exact ⟨by rw [skipChars], by simp⟩
  | case6 a b c d high hhigh _ _ e f g i r low hlow _ ih =>
      -- of two escapes that stand for one character each is passed over
      obtain ⟨s', hs'⟩ := exists_of_map_read h
      obtain ⟨hskip, hlength⟩ := ih hs'
      exact ⟨by simp [skipChars, hhigh, hlow, hskip], by simp only [List.length_cons]; omega⟩
  | case9 a b c d r unit hunit _ _ ih =>
      obtain ⟨s', hs'⟩ := exists_of_map_read h
      obtain ⟨hskip, hlength⟩ := ih hs'
      exact ⟨by simp [skipChars, hunit, hskip], by simp only [List.length_cons]; omega⟩
  | case11 c r hunit e he ih =>
      obtain ⟨s', hs'⟩ := exists_of_map_read h
      obtain ⟨hskip, hlength⟩ := ih hs'
      refine ⟨?_, by simp only [List.length_cons]; omega⟩
      rw [skipChars]
      · simp [he, hskip]
      · exact hunit
  | case13 c r hquote hunit hescape hplain ih =>
      obtain ⟨s', hs'⟩ := exists_of_map_read h
      obtain ⟨hskip, hlength⟩ := ih hs'
      refine ⟨?_, by simp only [List.length_cons]; omega⟩
      rw [skipChars]
      · simp [hplain, hskip]
      · exact hquote
      · exact hunit
      · exact hescape
  | _ => cases h

/-- A text that can be read can be skipped, to the same place. -/
lemma skipChars_of_readText {s : String} (h : readText cs = some (s, rest)) :
    skipChars cs = some rest ∧ rest.length < cs.length := by
  obtain ⟨s', hs'⟩ := exists_of_map_read h
  exact skipChars_of_readChars hs'

/-- What is neither an array nor an object and is read is passed over. -/
lemma skipScalar_of_readScalar {v : Value} (h : readScalar cs = some (v, rest)) :
    skipScalar cs = some rest ∧ rest.length < cs.length := by
  rw [readScalar.eq_def] at h
  split at h
  · obtain ⟨-, rfl⟩ := Prod.mk.inj (Option.some.inj h)
    exact ⟨rfl, by simp only [List.length_cons]; omega⟩
  · obtain ⟨-, rfl⟩ := Prod.mk.inj (Option.some.inj h)
    exact ⟨rfl, by simp only [List.length_cons]; omega⟩
  · obtain ⟨-, rfl⟩ := Prod.mk.inj (Option.some.inj h)
    exact ⟨rfl, by simp only [List.length_cons]; omega⟩
  · obtain ⟨s, hs⟩ := exists_of_map_read h
    obtain ⟨hskip, hlength⟩ := skipChars_of_readText hs
    exact ⟨hskip, by simp only [List.length_cons]; omega⟩
  · next hnull htrue hfalse hquote =>
    simp only [Option.bind_eq_bind, Option.bind_eq_some_iff, Option.pure_def, Option.some.injEq,
      Prod.mk.injEq, Prod.exists] at h
    obtain ⟨literal, r, hliteral, n, -, -, rfl⟩ := h
    refine ⟨?_, length_readLiteral hliteral⟩
    rw [skipScalar, hliteral]
    · rfl
    · exact hnull
    · exact htrue
    · exact hfalse
    · exact hquote

/-- A key that is read is passed over. -/
lemma skipKey_of_readKey {key : String} (h : readKey cs = some (key, rest)) :
    skipKey cs = some rest ∧ rest.length < cs.length := by
  rw [readKey] at h
  split at h
  · next r hquote =>
    simp only [Option.bind_eq_bind, Option.bind_eq_some_iff, Prod.exists] at h
    obtain ⟨s, r', hs, h⟩ := h
    obtain ⟨hskip, hlength⟩ := skipChars_of_readText hs
    have hopen := length_lt_of_skipSpace hquote
    split at h
    · next r'' hcolon =>
      obtain ⟨-, rfl⟩ := Prod.mk.inj (Option.some.inj h)
      have hclose := length_lt_of_skipSpace hcolon
      refine ⟨?_, by omega⟩
      rw [skipKey, hquote]
      simp [hskip, hcolon]
    · cases h
  · cases h

/-! ### Brackets -/

namespace Bracket

/-- The character that opens a bracket. -/
def opening : Bracket → Char
  | .array => '['
  | .object => '\x7b'

/-- The character that closes a bracket. -/
def closing : Bracket → Char
  | .array => ']'
  | .object => '\x7d'

/-- The text of the value of an item: a member has a key in front of it. -/
def enter : Bracket → List Char → Option (List Char)
  | .array, cs => some cs
  | .object, cs => skipKey cs

end Bracket

section Steps

variable {b : Bracket} {r : List Char} {c : Char} (fuel : ℕ) (opened : List Bracket)

/-- Brackets with nothing between them are skipped like a scalar. -/
lemma skipOpened_of_empty {r' : List Char} (hopen : skipSpace cs = b.opening :: r)
    (hclose : skipSpace r = b.closing :: r') :
    skipOpened (fuel + 1) opened cs = skipClosing fuel opened r' := by
  cases b <;> simp [skipOpened, hopen, hclose, Bracket.opening, Bracket.closing]

/-- An opening bracket is put on those that are open, and an item follows. -/
lemma skipOpened_of_item (hopen : skipSpace cs = b.opening :: r) {r' : List Char}
    (hitem : skipSpace r = c :: r') (hc : c ≠ b.closing) : skipOpened (fuel + 1) opened cs =
      (b.enter (c :: r')).bind (skipOpened fuel (b :: opened)) := by
  cases b <;> simp_all [skipOpened, Bracket.opening, Bracket.closing, Bracket.enter]

/-- Behind a scalar, the skipping goes on as behind a bracket that closes. -/
lemma skipOpened_of_scalar {v : Value} (hscalar : readScalar (skipSpace cs) = some (v, rest)) :
    skipOpened (fuel + 1) opened cs = skipClosing fuel opened rest := by
  rw [skipOpened]
  split
  · next heq => rw [heq] at hscalar; cases hscalar
  · next heq => rw [heq] at hscalar; cases hscalar
  · rw [(skipScalar_of_readScalar hscalar).1, Option.bind_some]

/-- Behind a comma, another item follows in the same bracket. -/
lemma skipClosing_of_comma (hcomma : skipSpace cs = ',' :: r) :
    skipClosing (fuel + 1) (b :: opened) cs =
      (b.enter r).bind (skipOpened fuel (b :: opened)) := by
  cases b <;> simp [skipClosing, hcomma, Bracket.enter]

/-- A closing bracket takes the innermost one from those that are open. -/
lemma skipClosing_of_close (hclose : skipSpace cs = b.closing :: r) :
    skipClosing (fuel + 1) (b :: opened) cs = skipClosing fuel opened r := by
  cases b <;> simp [skipClosing, hclose, Bracket.closing]

end Steps

/-! ### Values -/

/-- The skipper gets over one value, in no more steps than characters. -/
def Skips (cs rest : List Char) : Prop :=
  ∃ steps, steps + rest.length ≤ cs.length ∧ ∀ fuel opened,
    skipOpened (fuel + steps) opened cs = skipClosing fuel opened rest

/-- The skipper gets over one item inside a bracket. -/
def SkipsItem (b : Bracket) (cs rest : List Char) : Prop :=
  ∃ steps, steps + rest.length ≤ cs.length ∧ ∀ fuel opened,
    (b.enter cs).bind (skipOpened (fuel + steps) (b :: opened)) =
      skipClosing fuel (b :: opened) rest

/-- The skipper gets over what follows an item, up to the closing bracket. -/
def SkipsMore (b : Bracket) (cs rest : List Char) : Prop :=
  ∃ steps, steps + rest.length ≤ cs.length ∧ ∀ fuel opened,
    skipClosing (fuel + steps) (b :: opened) cs = skipClosing fuel opened rest

section Sequence

variable {b : Bracket} {α : Type} {item : Reader α}

/-- Items after the first that are read are passed over. -/
lemma skipsMore_readMore (hitem : ∀ {cs x rest}, item cs = some (x, rest) → SkipsItem b cs rest)
    {fuel : ℕ} {xs : List α} (h : readMore item b.closing fuel cs = some (xs, rest)) :
    SkipsMore b cs rest := by
  -- skipping takes a step for each bracket and comma and does not nest, so the steps of the parts
  -- are counted and added up, with what stays open behind them arbitrary
  induction fuel generalizing cs xs with
  | zero => cases h
  | succ fuel ih =>
      rw [readMore] at h
      split at h
      · cases h
      · next c r hspace =>
        have hlength := length_lt_of_skipSpace hspace
        split at h
        · next hc =>
          obtain ⟨-, rfl⟩ := Prod.mk.inj (Option.some.inj h)
          rw [hc] at hspace
          exact ⟨1, by omega, fun fuel opened => skipClosing_of_close fuel opened hspace⟩
        · split at h
          · next hc =>
            simp only [Option.bind_eq_bind, Option.bind_eq_some_iff, Option.pure_def,
              Option.some.injEq, Prod.mk.injEq, Prod.exists] at h
            obtain ⟨x, r', hx, ys, end', hys, -, rfl⟩ := h
            obtain ⟨steps, hsteps, hskip⟩ := hitem hx
            obtain ⟨steps', hsteps', hskip'⟩ := ih hys
            refine ⟨steps' + steps + 1, by omega, fun fuel opened => ?_⟩
            rw [hc] at hspace
            calc skipClosing (fuel + (steps' + steps + 1)) (b :: opened) cs
                = skipClosing ((fuel + steps' + steps) + 1) (b :: opened) cs := by
                  congr 1
                  omega
              _ = (b.enter r).bind (skipOpened (fuel + steps' + steps) (b :: opened)) :=
                  skipClosing_of_comma _ opened hspace
              _ = skipClosing (fuel + steps') (b :: opened) r' := hskip _ opened
              _ = skipClosing fuel opened end' := hskip' fuel opened
          · cases h

/-- A bracket whose items are read is passed over. -/
lemma skips_readSequence (hitem : ∀ {cs x rest}, item cs = some (x, rest) → SkipsItem b cs rest)
    {r : List Char} (hopen : skipSpace cs = b.opening :: r) {xs : List α}
    (h : readSequence item b.closing r = some (xs, rest)) : Skips cs rest := by
  have hlength := length_lt_of_skipSpace hopen
  rw [readSequence] at h
  split at h
  · cases h
  · next c r' hspace =>
    have hlength' := length_lt_of_skipSpace hspace
    split at h
    · next hc =>
      obtain ⟨-, rfl⟩ := Prod.mk.inj (Option.some.inj h)
      rw [hc] at hspace
      exact ⟨1, by omega, fun fuel opened => skipOpened_of_empty fuel opened hopen hspace⟩
    · next hc =>
      simp only [Option.bind_eq_bind, Option.bind_eq_some_iff, Option.pure_def,
        Option.some.injEq, Prod.mk.injEq, Prod.exists] at h
      obtain ⟨x, after, hx, ys, end', hys, -, rfl⟩ := h
      obtain ⟨steps, hsteps, hskip⟩ := hitem hx
      obtain ⟨steps', hsteps', hskip'⟩ := skipsMore_readMore hitem hys
      rw [List.length_cons] at hsteps
      refine ⟨steps' + steps + 1, by omega, fun fuel opened => ?_⟩
      calc skipOpened (fuel + (steps' + steps + 1)) opened cs
          = skipOpened ((fuel + steps' + steps) + 1) opened cs := by
            congr 1
            omega
        _ = (b.enter (c :: r')).bind (skipOpened (fuel + steps' + steps) (b :: opened)) :=
            skipOpened_of_item _ opened hopen hspace hc
        _ = skipClosing (fuel + steps') (b :: opened) after := hskip _ opened
        _ = skipClosing fuel opened end' := hskip' fuel opened

end Sequence

/-- Every value that is read is passed over. -/
lemma skips_readValue {depth : ℕ} {v : Value} (h : readValue depth cs = some (v, rest)) :
    Skips cs rest := by
  have scalar {cs rest : List Char} {v : Value}
      (h : readScalar (skipSpace cs) = some (v, rest)) : Skips cs rest := by
    have hlength := length_skipSpace_le cs
    have hscalar := (skipScalar_of_readScalar h).2
    exact ⟨1, by omega, fun fuel opened => skipOpened_of_scalar fuel opened h⟩
  -- reading nests and skipping keeps a stack: the induction is on the depth of the reader
  induction depth generalizing cs rest v with
  | zero => exact scalar h
  | succ depth ih =>
      rw [readValue] at h
      split at h
      · next r hopen =>
        obtain ⟨vs, hvs⟩ := exists_of_map_read h
        refine skips_readSequence (b := .array) (fun {cs v rest} hv => ?_) hopen hvs
        obtain ⟨steps, hsteps, hskip⟩ := ih hv
        exact ⟨steps, hsteps, fun fuel opened => hskip fuel _⟩
      · next r hopen =>
        obtain ⟨ms, hms⟩ := exists_of_map_read h
        obtain ⟨ms', hms'⟩ := exists_of_map_read hms
        refine skips_readSequence (b := .object) (fun {cs m rest} hm => ?_) hopen hms'
        simp only [readMember, Option.bind_eq_bind, Option.bind_eq_some_iff, Option.pure_def,
          Option.some.injEq, Prod.mk.injEq, Prod.exists] at hm
        obtain ⟨key, r', hkey, v, end', hv, -, rfl⟩ := hm
        obtain ⟨hskipKey, hlength⟩ := skipKey_of_readKey hkey
        obtain ⟨steps, hsteps, hskip⟩ := ih hv
        refine ⟨steps, by omega, fun fuel opened => ?_⟩
        rw [Bracket.enter, hskipKey, Option.bind_some, hskip]
      · exact scalar h

/-- **A value that is read is passed over**, whatever it nests and wherever it ends. -/
theorem skipValue_of_readValue {depth : ℕ} {v : Value} (h : readValue depth cs = some (v, rest)) :
    skipValue cs = some rest := by
  obtain ⟨steps, hsteps, hskip⟩ := skips_readValue h
  have hfuel : 2 * cs.length + 2 = (2 * cs.length + 2 - steps) + steps := by omega
  rw [skipValue, hfuel, hskip, skipClosing]

end BrokerPolicy.Json
