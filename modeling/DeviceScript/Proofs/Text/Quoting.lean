import DeviceScript.Proofs.Text.Runes
import DeviceScript.Proofs.Token.Words
import DeviceScript.Text.Quoted
import Mathlib.Algebra.Group.Nat.Defs

/-!
Quoted texts are read back as what was quoted. Every rune is written in one of a few ways, and each
of them is read as the octets of the rune.
-/

namespace DeviceScript.Text

/-! Digits in base sixteen. -/

theorem hex_value_digit {n : Nat} (digit : n < 16) : hexValue? (ascii n.digitChar) = some n := by
  have each : ∀ m < 16, hexValue? (ascii m.digitChar) = some m := by decide
  exact each n digit

theorem hex_one {n : Nat} (digit : n < 16) : hex 1 n = [ascii n.digitChar] := by
  simp [hex, Nat.toDigits_of_lt_base digit]

theorem hex_succ (width n : Nat) (some : 0 < width) :
    hex (width + 1) n = hex width (n / 16) ++ [ascii (n % 16).digitChar] := by
  by_cases digit : n < 16
  · obtain ⟨width, rfl⟩ := Nat.exists_eq_add_of_lt some
    have zero : n / 16 = 0 := Nat.div_eq_of_lt digit
    simp [hex, Nat.toDigits_of_lt_base digit, zero, Nat.mod_eq_of_lt digit, List.replicate_succ']
  · have digits := Nat.toDigits_of_base_le (b := 16) (n := n) (by decide) (by omega)
    simp [hex, digits]

theorem hex_read (width : Nat) {n : Nat} (fits : n < 16 ^ (width + 1)) :
    (hex (width + 1) n).length = width + 1 ∧
    (∀ b ∈ hex (width + 1) n, (hexValue? b).isSome = true) ∧
    ∀ value, (hex (width + 1) n).foldlM (fun v b => (hexValue? b).map (v * 16 + ·)) value =
      some (value * 16 ^ (width + 1) + n) := by
  induction width generalizing n with
  | zero =>
      have digit : n < 16 := by simpa using fits
      rw [hex_one digit]
      simp [hex_value_digit digit]
  | succ width ih =>
      have digit : n % 16 < 16 := Nat.mod_lt n (by decide)
      have smaller : n / 16 < 16 ^ (width + 1) := by
        rw [Nat.div_lt_iff_lt_mul (by decide)]
        rwa [Nat.pow_succ] at fits
      obtain ⟨length, digits, read⟩ := ih smaller
      rw [hex_succ _ _ (by omega)]
      refine ⟨by simp [length], ?_, ?_⟩
      · intro b member
        rcases List.mem_append.mp member with early | last
        · exact digits b early
        · rw [List.mem_singleton.mp last, hex_value_digit digit]
          rfl
      · intro value
        rw [List.foldlM_append, read]
        simp only [Option.bind_eq_bind, Option.bind_some, List.foldlM_cons, List.foldlM_nil,
          hex_value_digit digit, Option.map_some, pure]
        have wide : 16 ^ (width + 1 + 1) = 16 ^ (width + 1) * 16 := Nat.pow_succ ..
        rw [wide, ← Nat.mul_assoc]
        congr 1
        omega

theorem take_hex {width n : Nat} (some : 0 < width) (fits : n < 16 ^ width) (rest : Text) :
    takeHex width (hex width n ++ rest) = .some n := by
  obtain ⟨width, rfl⟩ := Nat.exists_eq_add_of_lt some
  rw [Nat.zero_add] at fits ⊢
  obtain ⟨length, -, read⟩ := hex_read width fits
  have digits : (hex (width + 1) n ++ rest).take (width + 1) = hex (width + 1) n :=
    List.take_left' length
  unfold takeHex
  simp only [digits, length, beq_self_eq_true, ↓reduceIte, read, Nat.zero_mul, Nat.zero_add]

/-! Runes and their octets. -/

theorem octet_of_nat {n : Nat} {b : UInt8} (same : n = b.toNat) : n.toUInt8 = b := by
  subst same
  exact UInt8.ofNat_toNat

theorem scalar_iff {n : Nat} :
    isScalar n = true ↔ n < 0xD800 ∨ 0xE000 ≤ n ∧ n < 0x110000 := by
  simp [isScalar]

theorem continuation_range {c : UInt8} (continues : isContinuation c = true) :
    0x80 ≤ c.toNat ∧ c.toNat ≤ 0xBF := by
  simpa [isContinuation, UInt8.le_iff_toNat_le] using continues

theorem encode_two {b c : UInt8} (lead : 0xC2 ≤ b.toNat ∧ b.toNat ≤ 0xDF)
    (continues : isContinuation c = true) :
    isScalar ((b.toNat - 0xC0) * 64 + low c) = true ∧
      encode ((b.toNat - 0xC0) * 64 + low c) = [b, c] := by
  have range := continuation_range continues
  unfold low
  generalize code : (b.toNat - 0xC0) * 64 + c.toNat % 64 = n
  refine ⟨scalar_iff.mpr (by omega), ?_⟩
  unfold encode
  rw [if_neg (by omega), if_pos (by omega), octet_of_nat (b := b) (by omega),
    octet_of_nat (b := c) (by omega)]

theorem encode_three {b c d : UInt8} (lead : 0xE0 ≤ b.toNat ∧ b.toNat ≤ 0xEF)
    (second : isContinuation c = true) (third : isContinuation d = true)
    (shortest : b.toNat = 0xE0 → 0xA0 ≤ c.toNat) (scalar : b.toNat = 0xED → c.toNat ≤ 0x9F) :
    isScalar ((b.toNat - 0xE0) * 4096 + low c * 64 + low d) = true ∧
      encode ((b.toNat - 0xE0) * 4096 + low c * 64 + low d) = [b, c, d] := by
  have range := continuation_range second
  have range' := continuation_range third
  unfold low
  generalize code : (b.toNat - 0xE0) * 4096 + c.toNat % 64 * 64 + d.toNat % 64 = n
  have encodes : isScalar n = true := scalar_iff.mpr (by omega)
  refine ⟨encodes, ?_⟩
  unfold encode
  rw [if_neg (by omega), if_neg (by omega), encodes, if_neg (by simp), if_pos (by omega),
    octet_of_nat (b := b) (by omega), octet_of_nat (b := c) (by omega),
    octet_of_nat (b := d) (by omega)]

theorem encode_four {b c d e : UInt8} (lead : 0xF0 ≤ b.toNat ∧ b.toNat ≤ 0xF4)
    (second : isContinuation c = true) (third : isContinuation d = true)
    (fourth : isContinuation e = true) (shortest : b.toNat = 0xF0 → 0x90 ≤ c.toNat)
    (scalar : b.toNat = 0xF4 → c.toNat ≤ 0x8F) :
    isScalar ((b.toNat - 0xF0) * 262144 + low c * 4096 + low d * 64 + low e) = true ∧
      encode ((b.toNat - 0xF0) * 262144 + low c * 4096 + low d * 64 + low e) = [b, c, d, e] := by
  have range := continuation_range second
  have range' := continuation_range third
  have range'' := continuation_range fourth
  unfold low
  generalize code : (b.toNat - 0xF0) * 262144 + c.toNat % 64 * 4096 + d.toNat % 64 * 64 +
    e.toNat % 64 = n
  have encodes : isScalar n = true := scalar_iff.mpr (by omega)
  refine ⟨encodes, ?_⟩
  unfold encode
  rw [if_neg (by omega), if_neg (by omega), encodes, if_neg (by simp), if_neg (by omega),
    octet_of_nat (b := b) (by omega), octet_of_nat (b := c) (by omega),
    octet_of_nat (b := d) (by omega), octet_of_nat (b := e) (by omega)]

/-- The ways to spell a rune: an octet alone, which may be no character at all, or a lead octet and
the continuation octets that it asks for. -/
inductive Spelled : Rune → Prop
  | lone (b : UInt8) : Spelled ⟨replacement, [b]⟩
  | one {b : UInt8} (plain : b < 0x80) : Spelled ⟨b.toNat, [b]⟩
  | two {b c : UInt8} (lead : 0xC2 ≤ b ∧ b ≤ 0xDF) (second : isContinuation c = true) :
      Spelled ⟨(b.toNat - 0xC0) * 64 + low c, [b, c]⟩
  | three {b c d : UInt8} (lead : 0xE0 ≤ b ∧ b ≤ 0xEF) (second : isContinuation c = true)
      (third : isContinuation d = true) (shortest : b = 0xE0 → 0xA0 ≤ c)
      (scalar : b = 0xED → c ≤ 0x9F) :
      Spelled ⟨(b.toNat - 0xE0) * 4096 + low c * 64 + low d, [b, c, d]⟩
  | four {b c d e : UInt8} (lead : 0xF0 ≤ b ∧ b ≤ 0xF4) (second : isContinuation c = true)
      (third : isContinuation d = true) (fourth : isContinuation e = true)
      (shortest : b = 0xF0 → 0x90 ≤ c) (scalar : b = 0xF4 → c ≤ 0x8F) :
      Spelled ⟨(b.toNat - 0xF0) * 262144 + low c * 4096 + low d * 64 + low e, [b, c, d, e]⟩

theorem first_rune_spelled (b : UInt8) (rest : Text) : Spelled (firstRune b rest) := by
  unfold firstRune
  by_cases plain : b < 0x80
  · simpa [plain] using Spelled.one plain
  simp only [plain, if_false]
  -- By the number of octets that the lead octet asks for; whatever does not fit is a lone octet.
  cases rest with
  | nil => exact .lone b
  | cons c rest =>
      simp only
      split
      · next lead =>
          split
          · next second => exact .two (by simpa using lead) second
          · exact .lone b
      · cases rest with
        | nil => exact .lone b
        | cons d rest =>
            simp only
            split
            · next lead =>
                split
                · next fits =>
                    simp only [Bool.and_eq_true, Bool.or_eq_true, bne_iff_ne,
                      decide_eq_true_eq] at lead fits
                    obtain ⟨⟨⟨second, third⟩, shortest⟩, scalar⟩ := fits
                    exact .three lead second third (fun same => shortest.resolve_left (· same))
                      fun same => scalar.resolve_left (· same)
                · exact .lone b
            · cases rest with
              | nil => exact .lone b
              | cons e rest =>
                  simp only
                  split
                  · next fits =>
                      simp only [Bool.and_eq_true, Bool.or_eq_true, bne_iff_ne,
                        decide_eq_true_eq] at fits
                      obtain ⟨⟨⟨⟨⟨lead, second⟩, third⟩, fourth⟩, shortest⟩, scalar⟩ := fits
                      exact .four lead second third fourth
                        (fun same => shortest.resolve_left (· same))
                        fun same => scalar.resolve_left (· same)
                  · exact .lone b

/-- A rune that is not a lone octet is written as its code point is encoded. -/
theorem encode_spelled {r : Rune} (spelled : Spelled r) :
    (∃ b, r = ⟨replacement, [b]⟩) ∨ isScalar r.code = true ∧ encode r.code = r.raw := by
  cases spelled with
  | lone b => exact .inl ⟨b, rfl⟩
  | @one b plain =>
      have small : b.toNat < 0x80 := UInt8.lt_iff_toNat_lt.mp plain
      refine .inr ⟨scalar_iff.mpr (by simp only; omega), ?_⟩
      unfold encode
      rw [if_pos small, octet_of_nat rfl]
  | two lead second =>
      simp only [UInt8.le_iff_toNat_le] at lead
      exact .inr (encode_two lead second)
  | three lead second third shortest scalar =>
      simp only [UInt8.le_iff_toNat_le, ← UInt8.toNat_inj] at lead shortest scalar
      exact .inr (encode_three lead second third shortest scalar)
  | four lead second third fourth shortest scalar =>
      simp only [UInt8.le_iff_toNat_le, ← UInt8.toNat_inj] at lead shortest scalar
      exact .inr (encode_four lead second third fourth shortest scalar)

theorem encode_valid {r : Rune} (spelled : Spelled r) (valid : r.isValid = true) :
    isScalar r.code = true ∧ encode r.code = r.raw := by
  rcases encode_spelled spelled with ⟨b, rfl⟩ | encoded
  · cases valid
  · exact encoded

theorem code_fits {r : Rune} (spelled : Spelled r) (valid : r.isValid = true) :
    r.code < 16 ^ 8 := by
  have scalar := scalar_iff.mp (encode_valid spelled valid).1
  omega

theorem invalid_lone {r : Rune} (spelled : Spelled r) (invalid : r.isValid = false) :
    ∃ b, r.raw = [b] := by
  rcases encode_spelled spelled with ⟨b, rfl⟩ | ⟨-, encoded⟩
  · exact ⟨b, rfl⟩
  · simp only [Rune.isValid, Bool.or_eq_false_iff, bne_eq_false_iff_eq] at invalid
    rw [← encoded, invalid.1] at invalid
    cases invalid.2

theorem small_raw {r : Rune} (spelled : Spelled r) (valid : r.isValid = true)
    (small : r.code < 0x80) : r.raw = [r.code.toUInt8] := by
  rw [← (encode_valid spelled valid).2]
  simp [encode, small]

theorem bne_or {b c : UInt8} {p : Prop} [Decidable p] (given : b = c → p) :
    (b != c || decide p) = true := by
  by_cases same : b = c
  · simp [same, given same]
  · simp [same]

/-- It is read as itself, whatever comes after it. -/
theorem spelled_again {r : Rune} (spelled : Spelled r) (valid : r.isValid = true) :
    ∃ b more, r.raw = b :: more ∧ ∀ rest, firstRune b (more ++ rest) = r := by
  cases spelled with
  | lone b => cases valid
  | one plain => exact ⟨_, [], rfl, fun rest => first_rune_ascii plain rest⟩
  | @two b c lead second =>
      refine ⟨b, [c], rfl, fun rest => ?_⟩
      have high : ¬ b < 0x80 := by grind
      simp [firstRune, high, lead, second]
  | @three b c d lead second third shortest scalar =>
      refine ⟨b, [c, d], rfl, fun rest => ?_⟩
      have high : ¬ b < 0x80 := by grind
      have other : ¬ b ≤ 0xDF := by grind
      have fits : (isContinuation c && isContinuation d && (b != 0xE0 || 0xA0 ≤ c)
          && (b != 0xED || c ≤ 0x9F)) = true := by
        simp only [second, third, bne_or shortest, bne_or scalar, Bool.and_true]
      unfold firstRune
      simp only [List.cons_append, List.nil_append, high, lead, other, fits, decide_true,
        decide_false, Bool.and_false, Bool.and_true, Bool.false_eq_true, ↓reduceIte]
  | @four b c d e lead second third fourth shortest scalar =>
      refine ⟨b, [c, d, e], rfl, fun rest => ?_⟩
      have high : ¬ b < 0x80 := by grind
      have other : ¬ b ≤ 0xEF := by grind
      have other' : ¬ b ≤ 0xDF := by grind
      have fits : (0xF0 ≤ b && b ≤ 0xF4 && isContinuation c && isContinuation d
          && isContinuation e && (b != 0xF0 || 0x90 ≤ c) && (b != 0xF4 || c ≤ 0x8F)) = true := by
        simp only [lead, second, third, fourth, bne_or shortest, bne_or scalar, decide_true,
          Bool.and_true]
      unfold firstRune
      simp only [List.cons_append, List.nil_append, high, other, other', fits, decide_false,
        Bool.and_false, Bool.false_eq_true, ↓reduceIte]

/-! Reading what was written. -/

theorem read_quoted_after (skip : Nat) (t : Text) :
    readQuoted skip t = readQuoted 0 (t.drop skip) := by
  induction t generalizing skip with
  | nil => cases skip <;> rfl
  | cons b rest ih =>
      cases skip with
      | zero => rfl
      | succ skip => exact ih skip

theorem read_quoted_escape {c : UInt8} {body octets : Text} (rest : Text)
    (read : readEscape c (body ++ rest) = some (octets, body.length)) :
    readQuoted 0 (backslash :: c :: (body ++ rest)) = (readQuoted 0 rest).map (octets ++ ·) := by
  have mark : (backslash == quoteMark) = false := by decide
  have line : (backslash == newline) = false := by decide
  rw [readQuoted]
  simp only [mark, line, Bool.false_eq_true, ↓reduceIte, beq_self_eq_true, read, Option.bind_some]
  rw [read_quoted_after]
  simp

theorem read_quoted_plain {b : UInt8} (mark : b ≠ quoteMark) (oneLine : b ≠ newline)
    (bare : b ≠ backslash) (rest : Text) :
    readQuoted 0 (b :: rest) = (readQuoted ((firstRune b rest).raw.length - 1) rest).map
      (encode (firstRune b rest).code ++ ·) := by
  conv => lhs; unfold readQuoted
  simp only [beq_eq_false_iff_ne.mpr mark, beq_eq_false_iff_ne.mpr oneLine,
    beq_eq_false_iff_ne.mpr bare, Bool.false_eq_true, ↓reduceIte]

/-- The ways in which quoting writes a rune: as it is, or as one of the escapes. -/
inductive Quoted : Rune → Text → Prop
  | plain {r : Rune} (valid : r.isValid = true) (mark : r.code ≠ 34) (bare : r.code ≠ 92)
      (oneLine : r.code ≠ 10) : Quoted r r.raw
  | letter {r : Rune} {c o : UInt8} (raw : r.raw = [o]) (reads : unescapeLetter? c = some o)
      (oneLine : c ≠ newline) : Quoted r [backslash, c]
  | octet {r : Rune} {o : UInt8} (raw : r.raw = [o]) :
      Quoted r (backslash :: ascii 'x' :: hex 2 o.toNat)
  | short {r : Rune} (valid : r.isValid = true) (fits : r.code < 0x10000) :
      Quoted r (backslash :: ascii 'u' :: hex 4 r.code)
  | long {r : Rune} (valid : r.isValid = true) :
      Quoted r (backslash :: ascii 'U' :: hex 8 r.code)

theorem escape_letter_read {code : Nat} {letter : Char}
    (escaped : escapeLetter? code = some letter) :
    code < 0x80 ∧ unescapeLetter? (ascii letter) = some code.toUInt8 ∧ ascii letter ≠ newline := by
  unfold escapeLetter? at escaped
  split at escaped <;> cases escaped <;> decide

theorem quoted_forms {r : Rune} (spelled : Spelled r) : Quoted r r.quoted := by
  unfold Rune.quoted
  cases valid : r.isValid with
  | false =>
      obtain ⟨b, raw⟩ := invalid_lone spelled valid
      simpa [raw] using Quoted.octet raw
  | true =>
      -- The escapes are tried in order: marks, what can be printed, letters, controls, code points.
      simp only [Bool.not_true, Bool.false_eq_true, ↓reduceIte, Bool.or_eq_true, beq_iff_eq]
      split
      · next mark =>
          have raw := small_raw spelled valid (by omega)
          rw [raw]
          refine .letter raw ?_ ?_ <;> rcases mark with code | code <;> rw [code] <;> decide
      · next other =>
          split
          · next printed =>
              refine .plain valid (fun same => other (.inl same)) (fun same => other (.inr same)) ?_
              intro line
              rw [line] at printed
              exact absurd printed (by decide)
          · split
            · next letter escaped =>
                obtain ⟨small, reads, oneLine⟩ := escape_letter_read escaped
                exact .letter (small_raw spelled valid small) reads oneLine
            · split
              · next control =>
                  have small : r.code < 0x80 := by
                    simp only [decide_eq_true_eq] at control
                    omega
                  have raw := small_raw spelled valid small
                  have same : r.code.toUInt8.toNat = r.code :=
                    UInt8.toNat_ofNat_of_lt' (Nat.lt_trans small (by decide))
                  have octet := Quoted.octet raw
                  rwa [same] at octet
              · split
                · next fits => exact .short valid fits
                · exact .long valid

/-- Among the octets of a character, only those that are the character itself are ASCII. -/
theorem ascii_in_raw {r : Rune} (spelled : Spelled r) (valid : r.isValid = true) {b : UInt8}
    (member : b ∈ r.raw) (plain : b < 0x80) : r.code = b.toNat := by
  have high {c : UInt8} (continues : isContinuation c = true) : ¬ c < 0x80 := by
    have range := continuation_range continues
    rw [UInt8.lt_iff_toNat_lt]
    exact Nat.not_lt.mpr range.1
  cases spelled with
  | lone => cases valid
  | one => rw [List.mem_singleton.mp member]
  | two lead second => grind
  | three lead second third => grind
  | four lead second third fourth => grind

theorem hex_digit_inert {b : UInt8} (digit : (hexValue? b).isSome = true) :
    b ≠ quoteMark ∧ b ≠ backslash ∧ b ≠ newline := by
  refine ⟨?_, ?_, ?_⟩ <;> rintro rfl <;> cases digit

theorem escaped_plain {q : UInt8} {u rest : Text} (plain : ∀ b ∈ u, b ≠ q ∧ b ≠ backslash)
    (escaped : Token.Escaped q rest) : Token.Escaped q (u ++ rest) := by
  induction u with
  | nil => exact escaped
  | cons b u ih =>
      obtain ⟨other, bare⟩ := plain b List.mem_cons_self
      exact .plain other bare (ih fun c later => plain c (List.mem_cons_of_mem b later))

theorem quoted_inert {r : Rune} (spelled : Spelled r) {u : Text} (quoted : Quoted r u) :
    newline ∉ u ∧ ∀ rest, Token.Escaped quoteMark rest → Token.Escaped quoteMark (u ++ rest) := by
  have escape {c : UInt8} {width n : Nat} (oneLine : c ≠ newline) (fits : n < 16 ^ (width + 1)) :
      newline ∉ backslash :: c :: hex (width + 1) n ∧ ∀ rest, Token.Escaped quoteMark rest →
        Token.Escaped quoteMark (backslash :: c :: hex (width + 1) n ++ rest) := by
    have digits := (hex_read width fits).2.1
    constructor
    · intro member
      rcases List.mem_cons.mp member with mark | later
      · cases mark
      · rcases List.mem_cons.mp later with same | digit
        · exact oneLine same.symm
        · exact (hex_digit_inert (digits _ digit)).2.2 rfl
    · intro rest escaped
      refine .pair oneLine (escaped_plain ?_ escaped)
      intro b member
      have inert := hex_digit_inert (digits b member)
      exact ⟨inert.1, inert.2.1⟩
  cases quoted with
  | plain valid mark bare oneLine =>
      have other (b : UInt8) (plain : b < 0x80) (different : r.code ≠ b.toNat) : b ∉ r.raw :=
        fun member => different (ascii_in_raw spelled valid member plain)
      refine ⟨other newline (by decide) oneLine, fun rest escaped => escaped_plain ?_ escaped⟩
      intro b member
      constructor
      · rintro rfl
        exact other quoteMark (by decide) mark member
      · rintro rfl
        exact other backslash (by decide) bare member
  | letter raw reads oneLine =>
      refine ⟨?_, fun rest escaped => .pair oneLine escaped⟩
      simpa [oneLine.symm] using (by decide : newline ≠ backslash)
  | @octet o raw => exact escape (by decide) (by simpa using o.toNat_lt)
  | short valid fits => exact escape (by decide) (by simpa using fits)
  | long valid => exact escape (by decide) (code_fits spelled valid)

theorem read_code_escape {r : Rune} (spelled : Spelled r) (valid : r.isValid = true) {c : UInt8}
    {width : Nat} (some : 0 < width) (fits : r.code < 16 ^ width)
    (escape : ∀ t, readEscape c t = (takeHex width t).bind fun n =>
      if isScalar n then .some (encode n, width) else none) (rest : Text) :
    readQuoted 0 (backslash :: c :: (hex width r.code ++ rest)) =
      (readQuoted 0 rest).map (r.raw ++ ·) := by
  obtain ⟨scalar, encoded⟩ := encode_valid spelled valid
  obtain ⟨width, rfl⟩ := Nat.exists_eq_add_of_lt some
  rw [Nat.zero_add] at *
  refine read_quoted_escape rest ?_
  rw [escape, take_hex some fits, (hex_read width fits).1, Option.bind_some, scalar, if_pos rfl,
    encoded]

theorem read_quoted_form {r : Rune} (spelled : Spelled r) {u : Text} (quoted : Quoted r u)
    (rest : Text) : readQuoted 0 (u ++ rest) = (readQuoted 0 rest).map (r.raw ++ ·) := by
  cases quoted with
  | plain valid mark bare oneLine =>
      obtain ⟨b, more, raw, again⟩ := spelled_again spelled valid
      have other (c : UInt8) (plain : c < 0x80) (different : r.code ≠ c.toNat) : b ≠ c := by
        rintro rfl
        exact different (ascii_in_raw spelled valid (raw ▸ List.mem_cons_self) plain)
      have step := read_quoted_plain (other quoteMark (by decide) mark)
        (other newline (by decide) oneLine) (other backslash (by decide) bare) (more ++ rest)
      rw [again, (encode_valid spelled valid).2, read_quoted_after (r.raw.length - 1), raw] at step
      simpa [raw] using step
  | @letter c o raw reads oneLine =>
      have read : readEscape c ([] ++ rest) = some ([o], ([] : Text).length) := by
        simp [readEscape, reads]
      rw [raw]
      exact read_quoted_escape rest read
  | @octet o raw =>
      have read : readEscape (ascii 'x') (hex 2 o.toNat ++ rest) =
          some ([o], (hex 2 o.toNat).length) := by
        have value : takeHex 2 (hex 2 o.toNat ++ rest) = some o.toNat :=
          take_hex (by decide) (by simpa using o.toNat_lt) rest
        have length := (hex_read 1 (n := o.toNat) (by simpa using o.toNat_lt)).1
        have escape : readEscape (ascii 'x') (hex 2 o.toNat ++ rest) =
          (takeHex 2 (hex 2 o.toNat ++ rest)).map fun n => ([n.toUInt8], 2) := rfl
        rw [escape, value, length, Option.map_some, octet_of_nat rfl]
      rw [raw]
      exact read_quoted_escape rest read
  | short valid fits =>
      exact read_code_escape spelled valid (by decide) (by simpa using fits) (fun _ => rfl) rest
  | long valid =>
      exact read_code_escape spelled valid (by decide) (code_fits spelled valid) (fun _ => rfl) rest

/-! Whole texts. -/

theorem quote_inside (t : Text) : ∃ inside, quote t = quoteMark :: (inside ++ [quoteMark]) ∧
    newline ∉ inside ∧ Token.Escaped quoteMark inside ∧
    ∀ rest, readQuoted 0 (inside ++ rest) = (readQuoted 0 rest).map (t ++ ·) := by
  refine ⟨_, rfl, ?_⟩
  induction t using rune_induction with
  | nil => exact ⟨nofun, .nil, fun rest => by simp [runes, runesAfter]⟩
  | rune b more after first ih =>
      obtain ⟨oneLine, escaped, read⟩ := ih
      have spelled := first_rune_spelled b (more ++ after)
      have form := quoted_forms spelled
      obtain ⟨clean, keeps⟩ := quoted_inert spelled form
      -- The rune is read off first, and what was written of the rest is left.
      rw [runes_split first, List.flatMap_cons]
      refine ⟨?_, keeps _ escaped, ?_⟩
      · intro member
        rcases List.mem_append.mp member with here | later
        · exact clean here
        · exact oneLine later
      · intro rest
        rw [List.append_assoc, read_quoted_form spelled form, read, Option.map_map, first]
        congr 1
        funext u
        simp

theorem unquote_quote (t : Text) : unquote (quote t) = some t := by
  obtain ⟨inside, written, -, -, read⟩ := quote_inside t
  have ends : readQuoted 0 [quoteMark] = some [] := rfl
  rw [written]
  show readQuoted 0 (inside ++ [quoteMark]) = some t
  rw [read, ends, Option.map_some, List.append_nil]

theorem quote_closed (t : Text) : Token.Closed (quote t) := by
  obtain ⟨inside, written, -, escaped, -⟩ := quote_inside t
  exact ⟨quoteMark, inside, .inl rfl, escaped, written⟩

theorem quote_one_line (t : Text) : newline ∉ quote t := by
  obtain ⟨inside, written, oneLine, -, -⟩ := quote_inside t
  rw [written]
  intro member
  rcases List.mem_cons.mp member with mark | later
  · cases mark
  · rcases List.mem_append.mp later with within | last
    · exact oneLine within
    · cases List.mem_singleton.mp last

end DeviceScript.Text
