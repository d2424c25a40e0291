/-!
Reading bytes as UTF-8.

The reader is an automaton over the bytes: `Pending` is a character that has begun and says which
byte may come next. A byte that may not come ends the pending character as one damaged piece and is
looked at again as a first byte, so each longest prefix of a character that cannot be completed is
one damaged piece.

* `pieces` is the text as a list with `none` for every damaged piece.
* `decodeLossy` writes the replacement character for each of them, `decode?` refuses a text that has
  any. The two agree where both give an answer: `decodeLossy_of_decode?`.
-/
namespace BrokerPolicy.Text.Utf8

/-- A character of which the first bytes are read: how many bytes are missing, the bits read so far
and the range in which the next byte has to lie. -/
structure Pending where
  missing : Nat
  bits : Nat
  low : Nat := 0x80
  high : Nat := 0xBF

/-- What a byte can be when no character is pending. -/
inductive Lead where
  | complete (c : Char)
  | pending (p : Pending)
  | damaged

/-- Reads a byte as the first of a character. The narrowed ranges after `E0`, `ED`, `F0` and `F4`
leave out overlong forms, surrogates and code points above `10FFFF`. -/
def Lead.ofByte (byte : UInt8) : Lead :=
  let n := byte.toNat
  if n < 0x80 then .complete (Char.ofNat n)
  else if n < 0xC2 then .damaged
  else if n < 0xE0 then .pending { missing := 1, bits := n % 32 }
  else if n == 0xE0 then .pending { missing := 2, bits := n % 16, low := 0xA0 }
  else if n == 0xED then .pending { missing := 2, bits := n % 16, high := 0x9F }
  else if n < 0xF0 then .pending { missing := 2, bits := n % 16 }
  else if n == 0xF0 then .pending { missing := 3, bits := n % 8, low := 0x90 }
  else if n < 0xF4 then .pending { missing := 3, bits := n % 8 }
  else if n == 0xF4 then .pending { missing := 3, bits := n % 8, high := 0x8F }
  else .damaged

/-- The pieces of a byte sequence that follows a pending character, if there is one. -/
def piecesFrom : Option Pending → List UInt8 → List (Option Char)
  | none, [] => []
  | some _, [] => [none]
  | pending?, byte :: rest =>
    let restart (damage : List (Option Char)) : List (Option Char) :=
      match Lead.ofByte byte with
      | .complete c => damage ++ some c :: piecesFrom none rest
      | .pending p => damage ++ piecesFrom (some p) rest
      | .damaged => damage ++ none :: piecesFrom none rest
    match pending? with
    | none => restart []
    | some p =>
      if p.low ≤ byte.toNat && byte.toNat ≤ p.high then
        let bits := p.bits * 64 + byte.toNat % 64
        match p.missing with
        | 0 | 1 => some (Char.ofNat bits) :: piecesFrom none rest
        | missing + 2 => piecesFrom (some { missing := missing + 1, bits }) rest
      else restart [none]

/-- The characters of a byte sequence, `none` for every damaged piece. -/
def pieces (bytes : List UInt8) : List (Option Char) :=
  piecesFrom none bytes

/-- The character that stands for a damaged piece. -/
def replacement : Char := '\uFFFD'

/-- Reads any bytes; a damaged piece becomes the replacement character. -/
def decodeLossy (bytes : List UInt8) : String :=
  String.ofList ((pieces bytes).map (·.getD replacement))

/-- Reads bytes that are UTF-8 throughout. -/
def decode? (bytes : List UInt8) : Option String :=
  ((pieces bytes).mapM id).map String.ofList

/-- The bytes of a text. -/
def encode (cs : List Char) : List UInt8 :=
  cs.flatMap String.utf8EncodeChar

/-! ### The two readings agree -/

theorem map_getD_of_mapM {xs : List (Option Char)} {cs : List Char} (d : Char)
    (h : xs.mapM id = some cs) : xs.map (·.getD d) = cs := by
  induction xs generalizing cs with
  | nil => simpa using h
  | cons x xs ih =>
    cases x with
    | none => simp at h
    | some c =>
      simp only [List.mapM_cons, id_eq, Option.bind_eq_bind, Option.bind_some,
        Option.bind_eq_some_iff] at h
      obtain ⟨ds, hds, heq⟩ := h
      simp only [Option.pure_def, Option.some.injEq] at heq
      simp [← heq, ih hds]

/-- Where the strict reading succeeds the lenient one gives the same text. -/
theorem decodeLossy_of_decode? {bytes : List UInt8} {s : String} (h : decode? bytes = some s) :
    decodeLossy bytes = s := by
  obtain ⟨cs, hcs, rfl⟩ := Option.map_eq_some_iff.1 h
  rw [decodeLossy, map_getD_of_mapM replacement hcs]

end BrokerPolicy.Text.Utf8
