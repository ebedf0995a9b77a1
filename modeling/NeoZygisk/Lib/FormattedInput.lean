import Mathlib.Algebra.Group.Nat.Defs
import Mathlib.Algebra.Ring.Int.Defs
import NeoZygisk.Lib.Text

/-!
# Formatted input

`sscanf` reads a text under a list of directives, which it obeys one after the other until one fails. The values
stored up to there are its result (`scan`). Numbers may have white space, a sign and, in base sixteen, a prefix before
them; they are read into the largest type there is and then truncated.

`fgets` cuts a text into lines, and a long line into pieces.

A directive reads back what it is for: `read_unsigned` a number in any base up to sixteen that was printed with any
padding, if nothing alphanumeric follows it.
-/

set_option autoImplicit false

namespace NeoZygisk.Lib.FormattedInput

open NeoZygisk.Lib.Text

abbrev Text := List Char

/-! ## Numbers -/

/-- `isspace`. -/
def isSpace (c : Char) : Bool := c == ' ' || decide ('\t'.toNat ≤ c.toNat ∧ c.toNat ≤ '\r'.toNat)

/-- The value of a digit; what is none has the value 36, which is below no base. -/
def digitValue (c : Char) : Nat :=
  if '0'.toNat ≤ c.toNat ∧ c.toNat ≤ '9'.toNat then c.toNat - '0'.toNat
  else if 'a'.toNat ≤ c.toNat ∧ c.toNat ≤ 'z'.toNat then c.toNat - 'a'.toNat + 10
  else if 'A'.toNat ≤ c.toNat ∧ c.toNat ≤ 'Z'.toNat then c.toNat - 'A'.toNat + 10
  else 36

def isDigitOf (base : Nat) (c : Char) : Bool := decide (digitValue c < base)

/-- The number with the given digits. -/
def value (base : Nat) (digits : Text) : Nat := digits.foldl (fun n c => base * n + digitValue c) 0

/-- An optional sign: whether it is a minus, and what follows. -/
def readSign : Text → Bool × Text
  | '-' :: rest => (true, rest)
  | '+' :: rest => (false, rest)
  | rest => (false, rest)

/-- A prefix of the base, if a digit follows it. -/
def dropPrefix (base : Nat) : Text → Text
  | '0' :: x :: d :: rest =>
      if base = 16 ∧ (x = 'x' ∨ x = 'X') ∧ isDigitOf 16 d = true then d :: rest else '0' :: x :: d :: rest
  | rest => rest

/-- White space, a sign and digits: whether there is a minus, the number and what follows. -/
def readNumber (base : Nat) (text : Text) : Option (Bool × Nat × Text) :=
  let (negative, text) := readSign (text.dropWhile isSpace)
  let text := dropPrefix base text
  let digits := text.takeWhile (isDigitOf base)
  if digits = [] then none
  else some (negative, value base digits, text.dropWhile (isDigitOf base))

/-- `strtoumax`, stored into an unsigned type of the given size. -/
def storeUnsigned (bits : Nat) (negative : Bool) (n : Nat) : Nat :=
  (if 2 ^ 64 ≤ n then 2 ^ 64 - 1 else if negative then 2 ^ 64 - n else n) % 2 ^ bits

/-- `strtoimax`, stored into a signed type of the given size. -/
def storeSigned (bits : Nat) (negative : Bool) (n : Nat) : Int :=
  (if negative then (if 2 ^ 63 ≤ n then -2 ^ 63 else -(n : Int))
    else if 2 ^ 63 ≤ n then 2 ^ 63 - 1 else (n : Int)).bmod (2 ^ bits)

/-- `strtol` on a whole text in base ten; `none` if the text goes on behind the number or the number is too large
for a `long` of the given size. Without a number nothing is read, and the result is 0. -/
def strtolAll (bits : Nat) (text : Text) : Option Int :=
  match readNumber 10 text with
  | none => if text = [] then some 0 else none
  | some (negative, n, rest) =>
      if rest ≠ [] then none
      else if negative then (if 2 ^ (bits - 1) < n then none else some (-(n : Int)))
      else if 2 ^ (bits - 1) ≤ n then none
      else some n

/-! ## Directives -/

inductive Directive where
  /-- White space: any amount of it. -/
  | space
  | literal (c : Char)
  /-- `%u`, `%lu` and `%x`, stored into a type of the given size. -/
  | unsigned (base bits : Nat)
  /-- `%d`. -/
  | signed (bits : Nat)
  /-- `%4s`: a word of at most the given length. -/
  | word (width : Nat)
  /-- `%c`. -/
  | char
  /-- `%n`: how much was read. -/
  | count
  deriving DecidableEq, Repr

inductive Value where
  | unsigned (n : Nat)
  | signed (n : Int)
  | word (w : Text)
  | char (c : Char)
  | count (n : Nat)
  deriving DecidableEq, Repr

/-- What a directive stores, if it stores anything, and what follows; `pos` is how much was read before. -/
def Directive.read (pos : Nat) (text : Text) : Directive → Option (Option Value × Text)
  | .space => some (none, text.dropWhile isSpace)
  | .literal c => if text.head? = some c then some (none, text.tail) else none
  | .unsigned base bits =>
      (readNumber base text).map fun (negative, n, rest) => (some (.unsigned (storeUnsigned bits negative n)), rest)
  | .signed bits =>
      (readNumber 10 text).map fun (negative, n, rest) => (some (.signed (storeSigned bits negative n)), rest)
  | .word width =>
      let text := text.dropWhile isSpace
      let w := (text.take width).takeWhile fun c => !isSpace c
      if w = [] then none else some (some (.word w), text.drop w.length)
  | .char => text.head?.map fun c => (some (.char c), text.tail)
  | .count => some (some (.count pos), text)

/-- `sscanf`: the values stored until a directive fails. -/
def scan (pos : Nat) : List Directive → Text → List Value
  | [], _ => []
  | d :: format, text =>
      match d.read pos text with
      | none => []
      | some (v, rest) => v.toList ++ scan (pos + (text.length - rest.length)) format rest

/-- A part of a format that stands for itself. -/
def literals (s : String) : List Directive := s.toList.map .literal

/-! ## Lines -/

/-- `fgets` with room for so many characters: what was read and what is left. -/
def fgets : Nat → Text → Text × Text
  | 0, text => ([], text)
  | _ + 1, [] => ([], [])
  | room + 1, c :: text =>
      if c = '\n' then ([c], text)
      else
        let (line, rest) := fgets room text
        (c :: line, rest)

/-- `while (fgets(...))` until a line has what is looked for. -/
def firstLine {β : Type} (room : Nat) (read : Text → Option β) : Nat → Text → Option β
  | 0, _ => none
  | fuel + 1, text =>
      match fgets room text with
      | ([], _) => none
      | (line, rest) => (read line).or (firstLine room read fuel rest)

/-- The lines `getline` reads, each with its end; the last one may lack it. -/
def getlines : Text → List Text
  | [] => []
  | c :: text =>
      if c = '\n' then ['\n'] :: getlines text
      else
        match getlines text with
        | [] => [[c]]
        | line :: rest => (c :: line) :: rest

/-! ## Printed numbers -/

/-- A number, filled up with zeros to the given width. -/
def padded (base width n : Nat) : Text := (Nat.toDigits base n).leftpad width '0'

def decimalText (n : Nat) : Text := Nat.toDigits 10 n

section Digits

variable {base : Nat}

theorem digitValue_digitChar {d : Nat} (h : d < 16) : digitValue (Nat.digitChar d) = d := by
  have hall : ∀ d < 16, digitValue (Nat.digitChar d) = d := by decide
  exact hall d h

theorem value_append_singleton (digits : Text) (c : Char) :
    value base (digits ++ [c]) = base * value base digits + digitValue c := by
  rw [value, List.foldl_append]
  rfl

/-- The last digit comes off the end. -/
theorem toDigits_induction (hbase : 1 < base) {motive : Nat → Prop} (n : Nat) (hlt : ∀ n < base, motive n)
    (hle : ∀ n, base ≤ n → motive (n / base) → motive n) : motive n := by
  induction n using Nat.strongRecOn with
  | ind n ih =>
      rcases Nat.lt_or_ge n base with h | h
      · exact hlt n h
      · exact hle n h (ih (n / base) (Nat.div_lt_self (by omega) hbase))

theorem value_toDigits (hbase : 1 < base) (hle : base ≤ 16) (n : Nat) : value base (Nat.toDigits base n) = n := by
  induction n using toDigits_induction hbase with
  | hlt n h =>
      rw [Nat.toDigits_of_lt_base h, value, List.foldl_cons, List.foldl_nil, Nat.mul_zero, Nat.zero_add,
        digitValue_digitChar (by omega)]
  | hle n h ih =>
      have hmod : n % base < base := Nat.mod_lt n (by omega)
      rw [Nat.toDigits_of_base_le hbase h, value_append_singleton, ih, digitValue_digitChar (by omega)]
      exact Nat.div_add_mod n base

/-- All that is printed are digits. -/
theorem isDigitOf_of_mem_toDigits (hbase : 1 < base) (hle : base ≤ 16) {n : Nat} {c : Char}
    (h : c ∈ Nat.toDigits base n) : isDigitOf base c = true := by
  have hdigit : ∀ d < base, isDigitOf base (Nat.digitChar d) = true := by
    intro d hd
    rw [isDigitOf, digitValue_digitChar (by omega)]
    exact decide_eq_true hd
  induction n using toDigits_induction hbase with
  | hlt n hn =>
      rw [Nat.toDigits_of_lt_base hn, List.mem_singleton] at h
      rw [h]
      exact hdigit n hn
  | hle n hn ih =>
      rw [Nat.toDigits_of_base_le hbase hn, List.mem_append, List.mem_singleton] at h
      rcases h with h | rfl
      · exact ih h
      · exact hdigit _ (Nat.mod_lt n (by omega))

theorem value_padded (hbase : 1 < base) (hle : base ≤ 16) (width n : Nat) : value base (padded base width n) = n := by
  have hzeros : ∀ k, (List.replicate k '0').foldl (fun n c => base * n + digitValue c) 0 = 0 := by
    intro k
    induction k with
    | zero => rfl
    | succ k ih => rw [List.replicate_succ, List.foldl_cons, Nat.mul_zero, show digitValue '0' = 0 by decide, ih]
  rw [padded, List.leftpad, value, List.foldl_append, hzeros]
  exact value_toDigits hbase hle n

theorem isDigitOf_of_mem_padded (hbase : 1 < base) (hle : base ≤ 16) {width n : Nat} {c : Char}
    (h : c ∈ padded base width n) : isDigitOf base c = true := by
  rw [padded, List.leftpad, List.mem_append] at h
  rcases h with h | h
  · rw [List.eq_of_mem_replicate h, isDigitOf, show digitValue '0' = 0 by decide]
    exact decide_eq_true (by omega)
  · exact isDigitOf_of_mem_toDigits hbase hle h

/-- White space is no digit. -/
theorem digitValue_of_isSpace {c : Char} (h : isSpace c = true) : digitValue c = 36 := by
  rw [isSpace, Bool.or_eq_true, beq_iff_eq, decide_eq_true_iff] at h
  rcases h with rfl | ⟨-, h⟩
  · decide
  · have hsmall : c.toNat ≤ 13 := h
    rw [digitValue, if_neg, if_neg, if_neg]
    · rintro ⟨hc, -⟩
      exact absurd (hc.trans hsmall) (by decide)
    · rintro ⟨hc, -⟩
      exact absurd (hc.trans hsmall) (by decide)
    · rintro ⟨hc, -⟩
      exact absurd (hc.trans hsmall) (by decide)

theorem isSpace_of_digitValue {c : Char} (h : digitValue c < 36) : isSpace c = false := by
  cases hspace : isSpace c with
  | false => rfl
  | true =>
      rw [digitValue_of_isSpace hspace] at h
      exact absurd h (Nat.lt_irrefl 36)

theorem isSpace_of_isDigitOf (hle : base ≤ 16) {c : Char} (h : isDigitOf base c = true) : isSpace c = false := by
  have hlt : digitValue c < base := of_decide_eq_true h
  exact isSpace_of_digitValue (by omega)

theorem not_mem_padded (hbase : 1 < base) (hle : base ≤ 16) {c : Char} (h : isSpace c = true) (width n : Nat) :
    c ∉ padded base width n := by
  intro hc
  rw [isSpace_of_isDigitOf hle (isDigitOf_of_mem_padded hbase hle hc)] at h
  cases h

theorem padded_ne_nil (width n : Nat) : padded base width n ≠ [] := by
  rw [padded, List.leftpad]
  exact List.append_ne_nil_of_right_ne_nil _ Nat.toDigits_ne_nil

theorem isSpace_of_mem_head?_padded (hbase : 1 < base) (hle : base ≤ 16) (width n : Nat) (rest : Text) :
    ∀ c ∈ (padded base width n ++ rest).head?, isSpace c = false := by
  obtain ⟨d, ds, hpadded⟩ := List.exists_cons_of_ne_nil (@padded_ne_nil base width n)
  intro c hc
  rw [hpadded, List.cons_append, List.head?_cons] at hc
  obtain rfl := Option.some.inj hc
  exact isSpace_of_isDigitOf hle (isDigitOf_of_mem_padded hbase hle (hpadded ▸ List.mem_cons_self))

/-- Without a width nothing is filled up. -/
theorem padded_zero (n : Nat) : padded 10 0 n = decimalText n := by
  rw [padded, List.leftpad, Nat.zero_sub, List.replicate_zero, List.nil_append, decimalText]

end Digits

/-! ## What is read -/

/-- The text does not begin with a letter or a digit. -/
def Stops (text : Text) : Prop := ∀ c ∈ text.head?, digitValue c = 36

theorem stops_cons {c : Char} (h : digitValue c = 36) (text : Text) : Stops (c :: text) := by
  intro d hd
  rw [← Option.some.inj hd, h]

/-- There is no prefix where the second character is not the letter of one. -/
theorem dropPrefix_eq_self (base : Nat) {text : Text} (h : ∀ c ∈ text.tail.head?, digitValue c ≠ digitValue 'x') :
    dropPrefix base text = text := by
  fun_cases dropPrefix base text with
  | case1 x d rest hprefix =>
      have hx := h x rfl
      rcases hprefix.2.1 with rfl | rfl
      · exact absurd rfl hx
      · exact absurd (by decide) hx
  | case2 => rfl
  | case3 => rfl

/-- A digit is no sign. -/
theorem readSign_of_isDigitOf {base : Nat} (hle : base ≤ 16) {d : Char} (hd : isDigitOf base d = true) (rest : Text) :
    readSign (d :: rest) = (false, d :: rest) := by
  have hlt : digitValue d < base := of_decide_eq_true hd
  rw [readSign]
  · rintro rest' heq
    obtain ⟨rfl, -⟩ := List.cons.inj heq
    rw [show digitValue '-' = 36 by decide] at hlt
    omega
  · rintro rest' heq
    obtain ⟨rfl, -⟩ := List.cons.inj heq
    rw [show digitValue '+' = 36 by decide] at hlt
    omega

/-- Where no digit stands, no number is read. -/
theorem readNumber_eq_none {base : Nat} (hbase : base ≠ 16) {c : Char} (hspace : isSpace c = false) (hminus : c ≠ '-')
    (hplus : c ≠ '+') (hdigit : isDigitOf base c = false) (rest : Text) : readNumber base (c :: rest) = none := by
  have hsign : readSign (c :: rest) = (false, c :: rest) := by
    rw [readSign]
    · intro rest' heq
      exact hminus (List.cons.inj heq).1
    · intro rest' heq
      exact hplus (List.cons.inj heq).1
  have hprefix : ∀ text, dropPrefix base text = text := by
    intro text
    fun_cases dropPrefix base text with
    | case1 x d rest h => exact absurd h.1 hbase
    | case2 => rfl
    | case3 => rfl
  have hskip : (c :: rest).dropWhile isSpace = c :: rest := List.dropWhile_cons_of_neg (by simp [hspace])
  have htake : (c :: rest).takeWhile (isDigitOf base) = [] := List.takeWhile_cons_of_neg (by simp [hdigit])
  simp only [readNumber, hskip, hsign, hprefix, htake, if_true]

theorem readNumber_skip (base : Nat) {skipped : Text} (hskipped : ∀ c ∈ skipped, isSpace c = true) (text : Text) :
    readNumber base (skipped ++ text) = readNumber base text := by
  rw [readNumber, readNumber, List.dropWhile_append_of_pos hskipped]

/-- A printed number is read back. -/
theorem readNumber_padded {base : Nat} (hbase : 1 < base) (hle : base ≤ 16) (width n : Nat) {rest : Text}
    (hrest : Stops rest) : readNumber base (padded base width n ++ rest) = some (false, n, rest) := by
  have hdigits : ∀ c ∈ padded base width n, isDigitOf base c = true := fun c hc => isDigitOf_of_mem_padded hbase hle hc
  have hstop : ∀ c ∈ rest.head?, isDigitOf base c = false := by
    intro c hc
    rw [isDigitOf, hrest c hc, decide_eq_false_iff_not]
    omega
  obtain ⟨d, ds, hpadded⟩ := List.exists_cons_of_ne_nil (@padded_ne_nil base width n)
  have hd : isDigitOf base d = true := hdigits d (hpadded ▸ List.mem_cons_self)
  have hdrop : (padded base width n ++ rest).dropWhile isSpace = padded base width n ++ rest := by
    rw [hpadded]
    exact List.dropWhile_cons_of_neg (by simp [isSpace_of_isDigitOf hle hd])
  have hsign : readSign (padded base width n ++ rest) = (false, padded base width n ++ rest) := by
    rw [hpadded]
    exact readSign_of_isDigitOf hle hd _
  -- the letter of a prefix is neither a digit nor what stops a number
  have hprefix : dropPrefix base (padded base width n ++ rest) = padded base width n ++ rest := by
    apply dropPrefix_eq_self
    rw [show digitValue 'x' = 33 by decide, hpadded, List.cons_append, List.tail_cons]
    intro c hc
    cases hds : ds with
    | nil =>
        rw [hds, List.nil_append] at hc
        rw [hrest c hc]
        decide
    | cons e es =>
        rw [hds, List.cons_append, List.head?_cons] at hc
        obtain rfl := Option.some.inj hc
        have he : digitValue e < base := of_decide_eq_true (hdigits e (by rw [hpadded, hds]; simp))
        omega
  simp only [readNumber, hdrop, hsign, hprefix, takeWhile_append_stop hdigits hstop,
    dropWhile_append_stop hdigits hstop, if_neg (padded_ne_nil width n), value_padded hbase hle]

theorem storeUnsigned_of_lt {bits n : Nat} (h : n < 2 ^ 64) : storeUnsigned bits false n = n % 2 ^ bits := by
  rw [storeUnsigned, if_neg (Nat.not_le.mpr h), if_neg Bool.false_ne_true]

theorem storeSigned_of_lt {bits n : Nat} (hbits : bits ≤ 64) (h : n < 2 ^ (bits - 1)) :
    storeSigned bits false n = n := by
  have hpow : 2 ^ (bits - 1) ≤ 2 ^ 63 := Nat.pow_le_pow_right (by decide) (by omega)
  rw [storeSigned, if_neg Bool.false_ne_true, if_neg (by omega)]
  cases bits with
  | zero =>
      obtain rfl : n = 0 := by
        rw [Nat.zero_sub, Nat.pow_zero] at h
        omega
      rfl
  | succ bits =>
      rw [Nat.add_sub_cancel] at h
      have hdouble : 2 ^ (bits + 1) = 2 * 2 ^ bits := Nat.pow_succ'
      rw [hdouble]
      apply Int.bmod_eq_of_le
      · omega
      · omega

/-- A part of the text that a directive reads. -/
theorem scan_cons {d : Directive} {w rest : Text} {v : Option Value} {pos : Nat}
    (h : d.read pos (w ++ rest) = some (v, rest)) (format : List Directive) :
    scan pos (d :: format) (w ++ rest) = v.toList ++ scan (pos + w.length) format rest := by
  simp only [scan, h, List.length_append, Nat.add_sub_cancel]

theorem scan_space {w rest : Text} (hw : ∀ c ∈ w, isSpace c = true) (hrest : ∀ c ∈ rest.head?, isSpace c = false)
    (pos : Nat) (format : List Directive) :
    scan pos (.space :: format) (w ++ rest) = scan (pos + w.length) format rest := by
  have hread : Directive.space.read pos (w ++ rest) = some (none, rest) := by
    rw [Directive.read, dropWhile_append_stop hw hrest]
  exact scan_cons hread format

theorem scan_literal (c : Char) (rest : Text) (pos : Nat) (format : List Directive) :
    scan pos (.literal c :: format) ([c] ++ rest) = scan (pos + 1) format rest := by
  have hread : (Directive.literal c).read pos ([c] ++ rest) = some (none, rest) := if_pos rfl
  exact scan_cons hread format

theorem scan_unsigned {base : Nat} (hbase : 1 < base) (hle : base ≤ 16) {n : Nat} (hn : n < 2 ^ 64) {rest : Text}
    (hrest : Stops rest) (bits width pos : Nat) (format : List Directive) :
    scan pos (.unsigned base bits :: format) (padded base width n ++ rest) =
      .unsigned (n % 2 ^ bits) :: scan (pos + (padded base width n).length) format rest := by
  have hread : (Directive.unsigned base bits).read pos (padded base width n ++ rest) =
      some (some (.unsigned (n % 2 ^ bits)), rest) := by
    rw [Directive.read, readNumber_padded hbase hle width n hrest, Option.map_some, ← storeUnsigned_of_lt hn]
  exact scan_cons hread format

theorem scan_signed {bits n : Nat} (hbits : bits ≤ 64) (hn : n < 2 ^ (bits - 1)) {rest : Text} (hrest : Stops rest)
    (pos : Nat) (format : List Directive) :
    scan pos (.signed bits :: format) (decimalText n ++ rest) =
      .signed n :: scan (pos + (decimalText n).length) format rest := by
  have hread : (Directive.signed bits).read pos (decimalText n ++ rest) = some (some (.signed n), rest) := by
    rw [Directive.read, ← padded_zero, readNumber_padded (by decide) (by decide) 0 n hrest, Option.map_some,
      ← storeSigned_of_lt hbits hn]
  exact scan_cons hread format

theorem scan_word {width : Nat} {w rest : Text} (hw : ∀ c ∈ w, isSpace c = false) (hne : w ≠ [])
    (hlength : w.length = width) (pos : Nat) (format : List Directive) :
    scan pos (.word width :: format) (w ++ rest) = .word w :: scan (pos + w.length) format rest := by
  have hdrop : (w ++ rest).dropWhile isSpace = w ++ rest := by
    obtain ⟨c, w, rfl⟩ := List.exists_cons_of_ne_nil hne
    exact List.dropWhile_cons_of_neg (by simp [hw c List.mem_cons_self])
  have htake : w.takeWhile (fun c => !isSpace c) = w := by
    rw [List.takeWhile_eq_self_iff]
    intro c hc
    rw [hw c hc]
    rfl
  have hread : (Directive.word width).read pos (w ++ rest) = some (some (.word w), rest) := by
    rw [Directive.read, hdrop, ← hlength, List.take_left, htake, if_neg hne, List.drop_left]
  exact scan_cons hread format

theorem scan_char (c : Char) (rest : Text) (pos : Nat) (format : List Directive) :
    scan pos (.char :: format) ([c] ++ rest) = .char c :: scan (pos + 1) format rest := by
  have hread : Directive.char.read pos ([c] ++ rest) = some (some (.char c), rest) := rfl
  exact scan_cons hread format

/-- A part of a format that stands for itself. -/
theorem scan_literals (s : String) (format : List Directive) (rest : Text) (pos : Nat) :
    scan pos (literals s ++ format) (s.toList ++ rest) = scan (pos + s.toList.length) format rest := by
  rw [literals]
  generalize s.toList = cs
  induction cs generalizing pos with
  | nil => rfl
  | cons c cs ih =>
      have hcons := scan_literal c (cs ++ rest) pos (cs.map .literal ++ format)
      rw [List.map_cons, List.cons_append, List.cons_append]
      refine hcons.trans ((ih (pos + 1)).trans ?_)
      rw [List.length_cons, Nat.add_assoc, Nat.add_comm 1]

/-- Where the text does not begin so, nothing is stored. -/
theorem scan_literals_of_not_prefix {s : String} {text : Text} (h : ¬ s.toList <+: text) (format : List Directive)
    (pos : Nat) : scan pos (literals s ++ format) text = [] := by
  rw [literals]
  generalize s.toList = cs at h
  induction cs generalizing text pos with
  | nil => exact absurd List.nil_prefix h
  | cons c cs ih =>
      rw [List.map_cons, List.cons_append, scan, Directive.read]
      cases text with
      | nil => rfl
      | cons d text =>
          rw [List.head?_cons]
          by_cases hd : d = c
          · subst hd
            rw [if_pos rfl]
            exact ih _ fun hprefix => h (List.cons_prefix_cons.mpr ⟨rfl, hprefix⟩)
          · rw [if_neg fun heq => hd (Option.some.inj heq)]

/-! ## Lines that are read -/

theorem getlines_flatMap {ls : List Text} (h : ∀ line ∈ ls, '\n' ∉ line) :
    getlines (ls.flatMap fun line => line ++ ['\n']) = ls.map fun line => line ++ ['\n'] := by
  have hline : ∀ line : Text, '\n' ∉ line → ∀ text, getlines (line ++ '\n' :: text) =
      (line ++ ['\n']) :: getlines text := by
    intro line hline text
    induction line with
    | nil => rw [List.nil_append, getlines, if_pos rfl, List.nil_append]
    | cons c line ih =>
        rw [List.cons_append, getlines, if_neg (List.ne_of_not_mem_cons hline).symm,
          ih (List.not_mem_of_not_mem_cons hline), List.cons_append]
  induction ls with
  | nil => rfl
  | cons line ls ih =>
      rw [List.flatMap_cons, List.append_assoc, List.singleton_append, hline line (h line List.mem_cons_self),
        ih fun l hl => h l (List.mem_cons_of_mem line hl), List.map_cons]

/-- A line that fits is read with its end. -/
theorem fgets_line {room : Nat} {line : Text} (hlength : line.length < room) (hline : '\n' ∉ line) (rest : Text) :
    fgets room (line ++ '\n' :: rest) = (line ++ ['\n'], rest) := by
  induction line generalizing room with
  | nil =>
      cases room with
      | zero => cases hlength
      | succ room => exact if_pos rfl
  | cons c line ih =>
      cases room with
      | zero => cases hlength
      | succ room =>
          rw [List.cons_append, fgets, if_neg (List.ne_of_not_mem_cons hline).symm,
            ih (Nat.lt_of_succ_lt_succ hlength) (List.not_mem_of_not_mem_cons hline)]
          rfl

/-- The loop goes on past lines that do not have what it looks for. -/
theorem firstLine_skip {β : Type} {room : Nat} {read : Text → Option β} {ls : List Text}
    (hls : ∀ line ∈ ls, line.length < room ∧ '\n' ∉ line ∧ read (line ++ ['\n']) = none) {line : Text}
    (hlength : line.length < room) (hline : '\n' ∉ line) {b : β} (hread : read (line ++ ['\n']) = some b)
    {fuel : Nat} (hfuel : ls.length < fuel) (rest : Text) :
    firstLine room read fuel ((ls.flatMap fun l => l ++ ['\n']) ++ (line ++ '\n' :: rest)) = some b := by
  have hstep : ∀ {l : Text}, l.length < room → '\n' ∉ l → ∀ (fuel : Nat) (text : Text),
      firstLine room read (fuel + 1) (l ++ '\n' :: text) =
        (read (l ++ ['\n'])).or (firstLine room read fuel text) := by
    intro l hl hnewline fuel text
    rw [firstLine, fgets_line hl hnewline]
    cases l <;> rfl
  induction ls generalizing fuel with
  | nil =>
      obtain ⟨fuel, rfl⟩ := Nat.exists_eq_succ_of_ne_zero (Nat.pos_iff_ne_zero.mp hfuel)
      rw [List.flatMap_nil, List.nil_append, hstep hlength hline, hread, Option.some_or]
  | cons l ls ih =>
      obtain ⟨hl, hnewline, hnone⟩ := hls l List.mem_cons_self
      obtain ⟨fuel, rfl⟩ := Nat.exists_eq_succ_of_ne_zero (Nat.pos_iff_ne_zero.mp (Nat.zero_lt_of_lt hfuel))
      rw [List.flatMap_cons, List.append_assoc, List.append_assoc, List.singleton_append, hstep hl hnewline, hnone,
        Option.none_or]
      exact ih (fun l' hl' => hls l' (List.mem_cons_of_mem l hl')) (Nat.lt_of_succ_lt_succ hfuel)

/-- The loop over a whole file. -/
theorem firstLine_eq {β : Type} {room : Nat} {read : Text → Option β} {ls : List Text}
    (hls : ∀ line ∈ ls, line.length < room ∧ '\n' ∉ line ∧ read (line ++ ['\n']) = none) {line : Text}
    (hlength : line.length < room) (hline : '\n' ∉ line) {b : β} (hread : read (line ++ ['\n']) = some b) (rest : Text) :
    let text := (ls.flatMap fun l => l ++ ['\n']) ++ (line ++ '\n' :: rest)
    firstLine room read text.length text = some b := by
  have hcount : ls.length ≤ (ls.flatMap fun l => l ++ ['\n']).length := by
    clear hls
    induction ls with
    | nil => exact Nat.zero_le _
    | cons l ls ih =>
        rw [List.flatMap_cons, List.length_append, List.length_append, List.length_cons, List.length_singleton]
        omega
  apply firstLine_skip hls hlength hline hread
  rw [List.length_append, List.length_append, List.length_cons]
  omega

end NeoZygisk.Lib.FormattedInput
