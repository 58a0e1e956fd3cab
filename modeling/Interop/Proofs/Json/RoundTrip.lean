import Interop.Json.Reader
import Interop.Json.Writer
import Interop.Proofs.Failing
import Interop.Proofs.Text.Lines
import Mathlib.Data.List.TakeWhile

/-!
# Written JSON reads back

Every text that the writer makes of a value without numbers is read as that value, in each of the
writer's styles (`read_write`).  A string is spelled character by character (`Spelled`), and what a
character is spelled as is read before what follows is looked at; only the first half of a surrogate
pair waits for a second, and no character has the code of one (`Spelled.assemble?`).  Values read
back by induction, whatever stands behind them (`Spells`), so that no budget has to be followed
through a whole text.
-/

set_option autoImplicit false

namespace Interop.Text

/-- The digits above the last. -/
theorem hexDigits_succ {width : Nat} (hwidth : 0 < width) (n : Nat) :
    hexDigits (width + 1) n = hexDigits width (n / 16) ++ [Nat.digitChar (n % 16)] := by
  obtain ⟨w, rfl⟩ := Nat.exists_eq_add_of_lt hwidth
  unfold hexDigits
  by_cases hn : n < 16
  · rw [Nat.toDigits_of_lt_base hn, Nat.div_eq_of_lt hn, Nat.mod_eq_of_lt hn]
    show List.replicate (0 + w + 1) '0' ++ _ = List.replicate (0 + w) '0' ++ ['0'] ++ _
    rw [List.replicate_succ']
  · rw [Nat.toDigits_of_base_le (by decide) (Nat.le_of_not_lt hn)]
    simp only [List.length_append, List.length_singleton, Nat.add_sub_add_right,
      List.append_assoc]

/-- The digits of sixteen bits. -/
theorem hexDigits_four {n : Nat} (h : n < 0x10000) :
    hexDigits 4 n = [Nat.digitChar (n / 4096), Nat.digitChar (n / 256 % 16),
      Nat.digitChar (n / 16 % 16), Nat.digitChar (n % 16)] := by
  have htop : n / 16 / 16 / 16 = n / 4096 := by omega
  have hone : hexDigits 1 (n / 4096) = [Nat.digitChar (n / 4096)] := by
    unfold hexDigits
    rw [Nat.toDigits_of_lt_base (by omega)]
    rfl
  rw [hexDigits_succ (by decide), hexDigits_succ (by decide), hexDigits_succ (by decide), htop,
    hone, Nat.div_div_eq_div_mul]
  rfl

theorem hexValue?_digitChar : ∀ n < 16, hexValue? (Nat.digitChar n) = some n := by decide

theorem digitChar_ascii : ∀ n < 16, (Nat.digitChar n).toNat < 0x80 := by decide

end Interop.Text

namespace Interop.Json

open Text (hexDigits_four hexValue?_digitChar digitChar_ascii)

/-! ## Characters -/

/-- Prepends pieces to what is read behind them. -/
def prepend (ps : List Piece) : List Piece × List Char → List Piece × List Char
  | (qs, left) => (ps ++ qs, left)

variable {start rest left : List Char} {ps qs : List Piece}

theorem pieces_unitEscape {n : Nat} (hn : n < 0x10000) (hrest : rest ≠ []) :
    pieces start (unitEscape n ++ rest) = (pieces start rest).map (prepend [.unit n]) := by
  have hunit : unit? (Nat.digitChar (n / 4096)) (Nat.digitChar (n / 256 % 16))
      (Nat.digitChar (n / 16 % 16)) (Nat.digitChar (n % 16)) = some n := by
    unfold unit?
    rw [hexValue?_digitChar _ (by omega), hexValue?_digitChar _ (by omega),
      hexValue?_digitChar _ (by omega), hexValue?_digitChar _ (by omega)]
    refine congrArg some ?_
    omega
  obtain ⟨c, rest, rfl⟩ := List.exists_cons_of_ne_nil hrest
  unfold unitEscape
  rw [hexDigits_four hn]
  show pieces start ('\\' :: 'u' :: _ :: _ :: _ :: _ :: c :: rest) = _
  rw [pieces.eq_4 start _ _ _ _ n c rest hunit]
  cases pieces start (c :: rest) <;> rfl

theorem pieces_shortEscape {e c : Char} (he : e ≠ 'u') (h : shortEscape? e = some c) :
    pieces start ('\\' :: e :: rest) = (pieces start rest).map (prepend [.char c]) := by
  rw [pieces.eq_6 start e rest fun _ _ _ _ _ hu _ => he hu, if_neg he, h]
  cases pieces start rest <;> rfl

theorem pieces_plain {c : Char} (hquote : c ≠ '"') (hslash : c ≠ '\\') (h : ¬ c.toNat < 0x20) :
    pieces start (c :: rest) = (pieces start rest).map (prepend [.char c]) := by
  rw [pieces.eq_7 start c rest hquote (fun hc _ => hslash hc) (fun _ _ _ _ _ hc _ => hslash hc)
    fun _ _ hc _ => hslash hc, if_neg h]
  cases pieces start rest <;> rfl

theorem map_prepend_append (x : Except Failure (List Piece × List Char)) (ps qs : List Piece) :
    x.map (prepend (ps ++ qs)) = (x.map (prepend qs)).map (prepend ps) := by
  cases x with
  | error failure => rfl
  | ok x => exact congrArg (fun t => Except.ok (t, x.2)) (List.append_assoc ps qs x.1)

/-- How a character is written. -/
inductive Spelled (ascii : Bool) (c : Char) : List Char → List Piece → Prop
  | short {e : Char} (hu : e ≠ 'u') (h : shortEscape? e = some c) :
      Spelled ascii c ['\\', e] [.char c]
  | plain (hquote : c ≠ '"') (hslash : c ≠ '\\') (hcontrol : ¬ c.toNat < 0x20)
      (hascii : c.toNat < 0x7F ∨ ascii = false) :
      Spelled ascii c [c] [.char c]
  | unit (h : c.toNat < 0x10000) : Spelled ascii c (unitEscape c.toNat) [.unit c.toNat]
  | pair (h : 0x10000 ≤ c.toNat) :
      Spelled ascii c
        (unitEscape (0xD800 + (c.toNat - 0x10000) / 0x400)
          ++ unitEscape (0xDC00 + (c.toNat - 0x10000) % 0x400))
        [.unit (0xD800 + (c.toNat - 0x10000) / 0x400),
          .unit (0xDC00 + (c.toNat - 0x10000) % 0x400)]

theorem exists_spelled (ascii : Bool) (c : Char) :
    ∃ ps, Spelled ascii c (escapeChar ascii c) ps := by
  unfold escapeChar
  dsimp only
  split_ifs with h1 h2 h3 h4 h5 h6 h7 h8 h9 h10
  · exact ⟨_, .short (by decide) (by rw [h1]; rfl)⟩
  · exact ⟨_, .short (by decide) (by rw [h2]; rfl)⟩
  · exact ⟨_, .short (by decide) (by rw [h3]; rfl)⟩
  · exact ⟨_, .short (by decide) (by rw [h4]; rfl)⟩
  · exact ⟨_, .short (by decide) (by rw [h5]; rfl)⟩
  · exact ⟨_, .short (by decide) (congrArg some (Char.toNat_inj.mp h6.symm))⟩
  · exact ⟨_, .short (by decide) (congrArg some (Char.toNat_inj.mp h7.symm))⟩
  · exact ⟨_, .unit (by omega)⟩
  · exact ⟨_, .plain h1 h2 h8 h9⟩
  · exact ⟨_, .unit h10⟩
  · exact ⟨_, .pair (by omega)⟩

/-- The codes that characters have. -/
theorem toNat_valid (c : Char) : c.toNat < 0xD800 ∨ 0xDFFF < c.toNat ∧ c.toNat < 0x110000 :=
  c.valid

theorem unitChar?_toNat (c : Char) : unitChar? c.toNat = some c := by
  have hvalid := toNat_valid c
  have hhalf : (isHighSurrogate c.toNat || isLowSurrogate c.toNat) = false := by
    simp only [isHighSurrogate, isLowSurrogate, Bool.or_eq_false_iff, Bool.and_eq_false_iff,
      decide_eq_false_iff_not]
    omega
  rw [unitChar?, hhalf]
  exact congrArg some (Char.ofNat_toNat c)

/-- Only the first half of a pair looks at what follows. -/
theorem assemble?_unit {code : Nat} (h : isHighSurrogate code = false) (qs : List Piece) :
    assemble? (.unit code :: qs) = do return (← unitChar? code) :: (← assemble? qs) := by
  match qs with
  | [] => rfl
  | .char _ :: _ => rfl
  | .unit _ :: _ =>
    rw [assemble?, h]
    rfl

theorem unitEscape_ascii {n : Nat} (hn : n < 0x10000) : ∀ d ∈ unitEscape n, d.toNat < 0x80 := by
  have hdigit {m : Nat} (hm : m < 16) := digitChar_ascii m hm
  unfold unitEscape
  rw [hexDigits_four hn]
  simp only [List.forall_mem_cons]
  refine ⟨by decide, by decide, ?_⟩
  exact ⟨hdigit (by omega), hdigit (by omega), hdigit (by omega), hdigit (by omega), nofun⟩

namespace Spelled

variable {ascii : Bool} {c : Char} {t : List Char}

theorem read (h : Spelled ascii c t ps) (hrest : rest ≠ []) :
    pieces start (t ++ rest) = (pieces start rest).map (prepend ps) := by
  cases h with
  | short hu h => exact pieces_shortEscape hu h
  | plain hquote hslash hcontrol _ => exact pieces_plain hquote hslash hcontrol
  | unit h => exact pieces_unitEscape h hrest
  | pair h =>
    have hvalid := toNat_valid c
    have hsecond := List.append_ne_nil_of_right_ne_nil
      (unitEscape (0xDC00 + (c.toNat - 0x10000) % 0x400)) hrest
    rw [List.append_assoc, pieces_unitEscape (by omega) hsecond,
      pieces_unitEscape (by omega) hrest, ← map_prepend_append]
    rfl

theorem assemble? (h : Spelled ascii c t ps) (qs : List Piece) :
    assemble? (ps ++ qs) = (assemble? qs).map (c :: ·) := by
  have hvalid := toNat_valid c
  cases h with
  | short => rfl
  | plain => rfl
  | unit h =>
    have hhigh : isHighSurrogate c.toNat = false := by
      simp only [isHighSurrogate, Bool.and_eq_false_iff, decide_eq_false_iff_not]
      omega
    show Json.assemble? (.unit c.toNat :: qs) = _
    rw [assemble?_unit hhigh, unitChar?_toNat]
    cases Json.assemble? qs <;> rfl
  | pair h =>
    have hhigh : isHighSurrogate (0xD800 + (c.toNat - 0x10000) / 0x400) = true := by
      simp only [isHighSurrogate, Bool.and_eq_true, decide_eq_true_eq]
      omega
    have hlow : isLowSurrogate (0xDC00 + (c.toNat - 0x10000) % 0x400) = true := by
      simp only [isLowSurrogate, Bool.and_eq_true, decide_eq_true_eq]
      omega
    have hcode : 0x10000 + (0xD800 + (c.toNat - 0x10000) / 0x400 - 0xD800) * 0x400
        + (0xDC00 + (c.toNat - 0x10000) % 0x400 - 0xDC00) = c.toNat := by omega
    show Json.assemble? (.unit _ :: .unit _ :: qs) = _
    rw [Json.assemble?, hhigh, hlow, pairChar, hcode, Char.ofNat_toNat]
    rfl

theorem ascii_text (h : Spelled true c t ps) : ∀ d ∈ t, d.toNat < 0x80 := by
  have hvalid := toNat_valid c
  cases h with
  | @short e hu h =>
    have he : e.toNat < 0x80 := by
      unfold shortEscape? at h
      split at h <;> first | decide | cases h
    exact List.forall_mem_cons.mpr ⟨by decide, List.forall_mem_singleton.mpr he⟩
  | plain _ _ _ hascii =>
    rcases hascii with hlt | hfalse
    · exact List.forall_mem_singleton.mpr (by omega)
    · cases hfalse
  | unit h => exact unitEscape_ascii h
  | pair h =>
    exact List.forall_mem_append.mpr ⟨unitEscape_ascii (by omega), unitEscape_ascii (by omega)⟩

end Spelled

/-! ## Strings -/

/-- The spellings of characters in a row. -/
theorem pieces_spellings (ascii : Bool) (cs : List Char) (start rest : List Char) :
    ∃ ps, pieces start (cs.flatMap (escapeChar ascii) ++ '"' :: rest) = .ok (ps, rest)
      ∧ assemble? ps = some cs := by
  induction cs with
  | nil => exact ⟨[], pieces.eq_2 start rest, rfl⟩
  | cons c cs ih =>
    obtain ⟨qs, hread, hassemble⟩ := ih
    obtain ⟨ps, hspelled⟩ := exists_spelled ascii c
    refine ⟨ps ++ qs, ?_, ?_⟩
    · rw [List.flatMap_cons, List.append_assoc, hspelled.read (by simp), hread]
      rfl
    · rw [hspelled.assemble?, hassemble]
      rfl

/-- A written string is read from behind its opening quote. -/
theorem string_stringText (ascii : Bool) (s : String) (rest : List Char) :
    string (s.toList.flatMap (escapeChar ascii) ++ '"' :: rest) = .ok (s, rest) := by
  obtain ⟨ps, hread, hassemble⟩ := pieces_spellings ascii s.toList
    ('"' :: (s.toList.flatMap (escapeChar ascii) ++ '"' :: rest)) rest
  unfold string
  rw [hread, ok_bind]
  dsimp only
  rw [hassemble]
  exact congrArg (fun t => Except.ok (t, rest)) (String.ofList_toList (s := s))

theorem stringText_ascii (s : String) : ∀ c ∈ stringText true s, c.toNat < 0x80 := by
  unfold stringText
  have hquote : ∀ c ∈ ['"'], c.toNat < 0x80 := List.forall_mem_singleton.mpr (by decide)
  refine List.forall_mem_cons.mpr ⟨by decide, List.forall_mem_append.mpr ⟨fun d hd => ?_, hquote⟩⟩
  obtain ⟨c, -, hd⟩ := List.mem_flatMap.mp hd
  obtain ⟨ps, hspelled⟩ := exists_spelled true c
  exact hspelled.ascii_text d hd

/-! ## Layout -/

/-- Text that the reader passes over. -/
def Gap (t : List Char) : Prop := ∀ c ∈ t, isSpace c = true

theorem gap_nil : Gap [] := nofun

theorem gap_space : Gap [' '] := by simp [Gap, isSpace]

theorem gap_newline (depth : Nat) : Gap (newline depth) := by
  intro c hc
  rcases List.mem_cons.mp hc with rfl | hc
  · rfl
  · rw [List.eq_of_mem_replicate hc]
    rfl

theorem skipSpace_gap {gap t : List Char} {c : Char} (hgap : Gap gap) (hc : isSpace c = false) :
    skipSpace (gap ++ c :: t) = c :: t := by
  rw [skipSpace, List.dropWhile_append_of_pos hgap,
    List.dropWhile_cons_of_neg (by simp [hc])]

/-- Items between brackets, with the space around them. -/
theorem enclose_eq (style : Style) (depth : Nat) (opening closing : Char) {items : List (List Char)}
    (hne : items ≠ []) :
    ∃ before between behind, Gap before ∧ Gap between ∧ Gap behind
      ∧ enclose style depth opening closing items
        = opening :: (before ++ (Text.joinWith (',' :: between) items ++ (behind ++ [closing]))) := by
  unfold enclose
  rw [if_neg hne]
  split
  · refine ⟨newline (depth + 1), newline (depth + 1), newline depth, gap_newline _, gap_newline _,
      gap_newline _, ?_⟩
    simp only [List.cons_append, List.append_assoc]
  · exact ⟨[], [' '], [], gap_nil, gap_space, gap_nil, rfl⟩

theorem enclose_getLast? (style : Style) (depth : Nat) (opening closing : Char)
    (items : List (List Char)) :
    (enclose style depth opening closing items).getLast? = some closing := by
  by_cases hne : items = []
  · subst hne
    rfl
  · obtain ⟨before, between, behind, -, -, -, htext⟩ :=
      enclose_eq style depth opening closing hne
    rw [htext, ← List.append_assoc, ← List.append_assoc, ← List.cons_append]
    exact List.getLast?_concat

/-- The text of a table ends with the closing brace. -/
theorem getLast?_of_table {style : Style} {depth : Nat} {entries : Value.Entries} {t : List Char}
    (h : valueText style depth (.table entries) = .ok t) : t.getLast? = some '\x7d' := by
  rw [valueText] at h
  obtain ⟨texts, -, hmade⟩ := bind_eq_ok.mp h
  cases hmade
  exact enclose_getLast? ..

theorem Gap.ascii {gap : List Char} (h : Gap gap) : ∀ c ∈ gap, c.toNat < 0x80 := by
  intro c hc
  have hspace := h c hc
  simp only [isSpace, Bool.or_eq_true, beq_iff_eq] at hspace
  rcases hspace with ((rfl | rfl) | rfl) | rfl <;> decide

/-! ## Values -/

/-- The characters that a value other than a number begins with. -/
def IsStart (c : Char) : Prop := c ∈ ['"', '[', '\x7b', 'n', 't', 'f']

instance (c : Char) : Decidable (IsStart c) := inferInstanceAs (Decidable (c ∈ _))

theorem IsStart.plain {c : Char} (h : IsStart c) :
    isSpace c = false ∧ c ≠ ']' ∧ c ≠ '\uFEFF' := by
  simp only [IsStart, List.mem_cons, List.not_mem_nil, or_false] at h
  rcases h with rfl | rfl | rfl | rfl | rfl | rfl <;> decide

/-- A text that is read as a value whatever follows it, on any budget that is not below its
length. -/
structure Spells (ascii : Bool) (v : Value) (t : List Char) : Prop where
  begins : ∃ c u, t = c :: u ∧ IsStart c
  reads : ∀ budget rest, t.length ≤ budget → value budget (t ++ rest) = .ok (v, rest)
  ascii : ascii = true → ∀ c ∈ t, c.toNat < 0x80

/-- A member of an object whose value a text spells. -/
def SpellsMember (ascii : Bool) (e : String × Value) (t : List Char) : Prop :=
  ∃ u, Spells ascii e.2 u ∧ t = stringText ascii e.1 ++ ':' :: ' ' :: u

variable {ascii : Bool} {v : Value} {t gap : List Char}

theorem Spells.skip_gap (h : Spells ascii v t) (hgap : Gap gap) (rest : List Char) :
    skipSpace (gap ++ (t ++ rest)) = t ++ rest := by
  obtain ⟨c, u, rfl, hc⟩ := h.begins
  exact skipSpace_gap hgap hc.plain.1

theorem spells_cons {c : Char} {w : List Char} (hstart : IsStart c)
    (hread : ∀ budget rest, w.length ≤ budget →
      value (budget + 1) (c :: (w ++ rest)) = .ok (v, rest))
    (hascii : ascii = true → ∀ d ∈ c :: w, d.toNat < 0x80) : Spells ascii v (c :: w) := by
  refine ⟨⟨c, w, rfl, hstart⟩, ?_, hascii⟩
  rintro (_ | budget) rest hbudget
  · cases hbudget
  · exact hread budget rest (Nat.le_of_succ_le_succ hbudget)

theorem spells_text (ascii : Bool) (s : String) : Spells ascii (.text s) (stringText ascii s) := by
  refine spells_cons (by decide) (fun budget rest _ => ?_) ?_
  · show (string ((s.toList.flatMap (escapeChar ascii) ++ ['"']) ++ rest) >>= _) = _
    rw [List.append_assoc, List.singleton_append, string_stringText]
    rfl
  · rintro rfl
    exact stringText_ascii s

theorem exists_joinWith (separator piece : List Char) (pieces : List (List Char)) :
    ∃ more, Text.joinWith separator (piece :: pieces) = piece ++ more := by
  cases pieces with
  | nil => exact ⟨[], (List.append_nil piece).symm⟩
  | cons next pieces => exact ⟨_, List.append_assoc _ _ _⟩

/-- The items of an array read back, with what closes it. -/
theorem arrayItems_joinWith {between behind : List Char} (hbetween : Gap between)
    (hbehind : Gap behind) {items : List Value} {texts : List (List Char)}
    (h : List.Forall₂ (Spells ascii) items texts) (hne : texts ≠ []) (rest : List Char) :
    ∀ budget, (Text.joinWith (',' :: between) texts).length < budget →
      arrayItems budget (Text.joinWith (',' :: between) texts ++ (behind ++ ']' :: rest))
        = .ok (items, rest) := by
  induction h with
  | nil => exact absurd rfl hne
  | @cons v t items texts hfirst hrest ih =>
    rintro (_ | budget) hbudget
    · cases hbudget
    cases hrest with
    | nil =>
      rw [arrayItems, Text.joinWith, hfirst.reads budget _ (Nat.le_of_lt_succ hbudget), ok_bind]
      dsimp only
      rw [skipSpace_gap hbehind rfl]
      rfl
    | @cons w u items texts hsecond hrest =>
      have hcons : u :: texts ≠ [] := List.cons_ne_nil _ _
      rw [Text.joinWith_cons _ _ hcons] at hbudget ⊢
      simp only [List.length_append, List.length_cons] at hbudget
      have hagain := ih hcons budget (by omega)
      obtain ⟨more, hmore⟩ := exists_joinWith (',' :: between) u texts
      rw [List.append_assoc, List.append_assoc, arrayItems, hfirst.reads budget _ (by omega),
        ok_bind]
      show (arrayItems budget (skipSpace (between ++ _)) >>= _) = _
      rw [hmore, List.append_assoc] at hagain ⊢
      rw [hsecond.skip_gap hbetween, hagain]
      rfl

/-- A member of an object reads back; a comma or the closing brace has to follow. -/
theorem members_step {e : String × Value} (h : SpellsMember ascii e t) (rest : List Char)
    {budget : Nat} (hbudget : t.length ≤ budget) :
    members (budget + 1) (t ++ rest) =
      match skipSpace rest with
      | '\x7d' :: left => .ok ([e], left)
      | ',' :: left => do
        let (settings, left) ← members budget (skipSpace left)
        return (e :: settings, left)
      | left => .error (.malformed .expectedComma left) := by
  obtain ⟨u, hspells, rfl⟩ := h
  have hlength : u.length ≤ budget := by
    simp only [List.length_append, List.length_cons] at hbudget
    omega
  have htext : (stringText ascii e.1 ++ ':' :: ' ' :: u) ++ rest
      = '"' :: (e.1.toList.flatMap (escapeChar ascii) ++ '"' :: ':' :: ' ' :: (u ++ rest)) := by
    simp [stringText]
  rw [htext, members, string_stringText, ok_bind]
  show (value budget (skipSpace ([' '] ++ (u ++ rest))) >>= _) = _
  rw [hspells.skip_gap gap_space, hspells.reads budget rest hlength]
  rfl

theorem SpellsMember.begins {e : String × Value} (h : SpellsMember ascii e t) :
    ∃ u, t = '"' :: u := by
  obtain ⟨u, -, rfl⟩ := h
  exact ⟨_, rfl⟩

/-- The members of an object read back, with what closes it. -/
theorem members_joinWith {between behind : List Char} (hbetween : Gap between)
    (hbehind : Gap behind) {entries : Value.Entries} {texts : List (List Char)}
    (h : List.Forall₂ (SpellsMember ascii) entries texts) (hne : texts ≠ []) (rest : List Char) :
    ∀ budget, (Text.joinWith (',' :: between) texts).length < budget →
      members budget (Text.joinWith (',' :: between) texts ++ (behind ++ '\x7d' :: rest))
        = .ok (entries, rest) := by
  induction h with
  | nil => exact absurd rfl hne
  | @cons e t entries texts hfirst hrest ih =>
    rintro (_ | budget) hbudget
    · cases hbudget
    cases hrest with
    | nil =>
      rw [Text.joinWith, members_step hfirst _ (Nat.le_of_lt_succ hbudget),
        skipSpace_gap hbehind rfl]
      rfl
    | @cons e' u entries texts hsecond hrest =>
      -- The space behind a comma is skipped up to the quote that the next member begins with.
      have hcons : u :: texts ≠ [] := List.cons_ne_nil _ _
      rw [Text.joinWith_cons _ _ hcons] at hbudget ⊢
      simp only [List.length_append, List.length_cons] at hbudget
      have hagain := ih hcons budget (by omega)
      obtain ⟨more, hmore⟩ := exists_joinWith (',' :: between) u texts
      obtain ⟨u, rfl⟩ := hsecond.begins
      rw [List.append_assoc, List.append_assoc, members_step hfirst _ (by omega)]
      show (members budget (skipSpace (between ++ _)) >>= _) = _
      rw [hmore, List.append_assoc] at hagain ⊢
      rw [List.cons_append, skipSpace_gap hbetween rfl]
      rw [List.cons_append] at hagain
      rw [hagain]
      rfl

/-! ## Tables -/

theorem insert_of_not_mem {key : String} {v : Value} {entries : Value.Entries}
    (h : key ∉ entries.map Prod.fst) : Value.insert key v entries = entries ++ [(key, v)] := by
  induction entries with
  | nil => rfl
  | cons e entries ih =>
    obtain ⟨k, w⟩ := e
    rw [List.map_cons, List.mem_cons, not_or] at h
    rw [Value.insert, if_neg (Ne.symm h.1), ih h.2]
    rfl

/-- Settings that name every key once are a table as they are. -/
theorem ofSettings_of_nodup {entries : Value.Entries} (h : (entries.map Prod.fst).Nodup) :
    Value.ofSettings entries = entries := by
  have hfold (before after : Value.Entries) (h : ((before ++ after).map Prod.fst).Nodup) :
      after.foldl (fun entries e => Value.insert e.1 e.2 entries) before = before ++ after := by
    induction after generalizing before with
    | nil => exact (List.append_nil before).symm
    | cons e after ih =>
      have hnew : e.1 ∉ before.map Prod.fst := by
        rw [List.map_append, List.map_cons] at h
        exact fun hmem => List.nodup_append.mp h |>.2.2 _ hmem _ (List.mem_cons_self ..) rfl
      show List.foldl _ (Value.insert e.1 e.2 before) after = _
      rw [insert_of_not_mem hnew, ih _ (by simpa using h), List.append_assoc]
      rfl
  exact hfold [] entries h

/-! ## Round trip -/

/-- A value without numbers and moments in which no table has a key twice. -/
inductive Verbal : Value → Prop
  | null : Verbal .null
  | bool (b : Bool) : Verbal (.bool b)
  | text (s : String) : Verbal (.text s)
  | list {items : List Value} (items_verbal : ∀ v ∈ items, Verbal v) : Verbal (.list items)
  | table {entries : Value.Entries} (nodup : (entries.map Prod.fst).Nodup)
      (values : ∀ e ∈ entries, Verbal e.2) : Verbal (.table entries)

theorem ascii_of_all {t : List Char} (h : t.all (·.toNat < 0x80) = true) :
    ∀ c ∈ t, c.toNat < 0x80 := by
  simpa using h

theorem spells_null (ascii : Bool) : Spells ascii .null "null".toList :=
  spells_cons (by decide) (fun _ _ _ => rfl) fun _ => ascii_of_all rfl

theorem spells_true (ascii : Bool) : Spells ascii (.bool true) "true".toList :=
  spells_cons (by decide) (fun _ _ _ => rfl) fun _ => ascii_of_all rfl

theorem spells_false (ascii : Bool) : Spells ascii (.bool false) "false".toList :=
  spells_cons (by decide) (fun _ _ _ => rfl) fun _ => ascii_of_all rfl

theorem itemTexts_spell {style : Style} {items : List Value} {depth : Nat}
    (h : ∀ v ∈ items, ∃ t, valueText style depth v = .ok t ∧ Spells style.ascii v t) :
    ∃ texts, itemTexts style depth items = .ok texts
      ∧ List.Forall₂ (Spells style.ascii) items texts := by
  induction items with
  | nil => exact ⟨[], rfl, .nil⟩
  | cons v items ih =>
    obtain ⟨t, ht, hspells⟩ := h v (List.mem_cons_self ..)
    obtain ⟨texts, htexts, hall⟩ := ih fun w hw => h w (List.mem_cons_of_mem _ hw)
    refine ⟨t :: texts, ?_, .cons hspells hall⟩
    rw [itemTexts, ht, ok_bind, htexts]
    rfl

theorem memberTexts_spell {style : Style} {entries : Value.Entries} {depth : Nat}
    (h : ∀ e ∈ entries, ∃ t, valueText style depth e.2 = .ok t ∧ Spells style.ascii e.2 t) :
    ∃ texts, memberTexts style depth entries = .ok texts
      ∧ List.Forall₂ (SpellsMember style.ascii) entries texts := by
  induction entries with
  | nil => exact ⟨[], rfl, .nil⟩
  | cons e entries ih =>
    obtain ⟨t, ht, hspells⟩ := h e (List.mem_cons_self ..)
    obtain ⟨texts, htexts, hall⟩ := ih fun w hw => h w (List.mem_cons_of_mem _ hw)
    refine ⟨_ :: texts, ?_, .cons ⟨t, hspells, rfl⟩ hall⟩
    rw [memberTexts, ht, ok_bind, htexts]
    rfl

/-- Brackets and the space between items are ASCII, if the items are. -/
theorem enclose_ascii {style : Style} {depth : Nat} {opening closing : Char}
    {texts : List (List Char)} (hopening : opening.toNat < 0x80) (hclosing : closing.toNat < 0x80)
    (h : ∀ t ∈ texts, ∀ c ∈ t, c.toNat < 0x80) :
    ∀ c ∈ enclose style depth opening closing texts, c.toNat < 0x80 := by
  by_cases hne : texts = []
  · subst hne
    exact List.forall_mem_cons.mpr ⟨hopening, List.forall_mem_singleton.mpr hclosing⟩
  obtain ⟨before, between, behind, hbefore, hbetween, hbehind, htext⟩ :=
    enclose_eq style depth opening closing hne
  rw [htext]
  refine List.forall_mem_cons.mpr ⟨hopening, List.forall_mem_append.mpr ⟨hbefore.ascii, ?_⟩⟩
  refine List.forall_mem_append.mpr ⟨fun c hc => ?_, List.forall_mem_append.mpr
    ⟨hbehind.ascii, List.forall_mem_singleton.mpr hclosing⟩⟩
  rcases Text.mem_joinWith hc with hc | ⟨t, ht, hc⟩
  · rcases List.mem_cons.mp hc with rfl | hc
    · decide
    · exact hbetween.ascii c hc
  · exact h t ht c hc

theorem value_array {c : Char} {inside items rest left : _} {budget : Nat}
    (hskip : skipSpace rest = c :: inside) (hc : c ≠ ']')
    (hitems : arrayItems budget (c :: inside) = .ok (items, left)) :
    value (budget + 1) ('[' :: rest) = .ok (.list items, left) := by
  rw [value, hskip]
  split
  · rename_i heq
    exact absurd (List.cons.inj heq).1 hc
  · rw [hitems]
    rfl

theorem value_object {c : Char} {inside settings rest left : _} {budget : Nat}
    (hskip : skipSpace rest = c :: inside) (hc : c ≠ '\x7d')
    (hsettings : members budget (c :: inside) = .ok (settings, left)) :
    value (budget + 1) ('\x7b' :: rest) = .ok (.table (Value.ofSettings settings), left) := by
  rw [value, hskip]
  split
  · rename_i heq
    exact absurd (List.cons.inj heq).1 hc
  · rw [hsettings]
    rfl

/-- What stands between brackets begins with the first item, once space is passed over. -/
theorem skipSpace_enclosed {before : List Char} (between behind rest : List Char) (closing : Char)
    (texts : List (List Char)) {c : Char} {u : List Char} (hbefore : Gap before)
    (ht : t = c :: u) (hc : isSpace c = false) :
    ∃ inside, skipSpace (before ++ (Text.joinWith (',' :: between) (t :: texts)
        ++ (behind ++ [closing])) ++ rest) = c :: inside
      ∧ c :: inside = Text.joinWith (',' :: between) (t :: texts)
        ++ (behind ++ closing :: rest) := by
  obtain ⟨more, hmore⟩ := exists_joinWith (',' :: between) t texts
  refine ⟨u ++ more ++ (behind ++ closing :: rest), ?_, ?_⟩
  · rw [hmore, ht]
    simp only [List.append_assoc, List.cons_append, List.nil_append]
    exact skipSpace_gap hbefore hc
  · rw [hmore, ht]
    simp

theorem spells_list {style : Style} {depth : Nat} {items : List Value} {texts : List (List Char)}
    (h : List.Forall₂ (Spells style.ascii) items texts) :
    Spells style.ascii (.list items) (enclose style depth '[' ']' texts) := by
  have hascii (hstyle : style.ascii = true) :
      ∀ c ∈ enclose style depth '[' ']' texts, c.toNat < 0x80 := by
    refine enclose_ascii (by decide) (by decide) fun t ht => ?_
    obtain ⟨v, -, hv⟩ := exists_of_forall₂ h ht
    exact hv.ascii hstyle
  cases h with
  | nil => exact spells_cons (by decide) (fun _ _ _ => rfl) hascii
  | @cons v t items texts hfirst hrest =>
    obtain ⟨before, between, behind, hbefore, hbetween, hbehind, htext⟩ :=
      enclose_eq style depth '[' ']' (List.cons_ne_nil t texts)
    rw [htext] at hascii ⊢
    refine spells_cons (by decide) (fun budget rest hbudget => ?_) hascii
    simp only [List.length_append, List.length_singleton] at hbudget
    obtain ⟨c, u, ht, hstart⟩ := hfirst.begins
    obtain ⟨inside, hskip, hinside⟩ := skipSpace_enclosed between behind rest ']' texts
      hbefore ht hstart.plain.1
    refine value_array hskip hstart.plain.2.1 ?_
    rw [hinside]
    exact arrayItems_joinWith hbetween hbehind (.cons hfirst hrest) (List.cons_ne_nil _ _) rest
      budget (by omega)

theorem spells_table {style : Style} {depth : Nat} {entries : Value.Entries}
    {texts : List (List Char)} (hnodup : (entries.map Prod.fst).Nodup)
    (h : List.Forall₂ (SpellsMember style.ascii) entries texts) :
    Spells style.ascii (.table entries) (enclose style depth '\x7b' '\x7d' texts) := by
  have hascii (hstyle : style.ascii = true) :
      ∀ c ∈ enclose style depth '\x7b' '\x7d' texts, c.toNat < 0x80 := by
    refine enclose_ascii (by decide) (by decide) fun t ht => ?_
    obtain ⟨e, -, u, hu, rfl⟩ := exists_of_forall₂ h ht
    refine List.forall_mem_append.mpr ⟨?_, ?_⟩
    · rw [hstyle]
      exact stringText_ascii e.1
    · refine List.forall_mem_cons.mpr ⟨by decide, List.forall_mem_cons.mpr ⟨by decide, ?_⟩⟩
      exact hu.ascii hstyle
  cases h with
  | nil => exact spells_cons (by decide) (fun _ _ _ => rfl) hascii
  | @cons e t entries texts hfirst hrest =>
    obtain ⟨before, between, behind, hbefore, hbetween, hbehind, htext⟩ :=
      enclose_eq style depth '\x7b' '\x7d' (List.cons_ne_nil t texts)
    rw [htext] at hascii ⊢
    refine spells_cons (by decide) (fun budget rest hbudget => ?_) hascii
    simp only [List.length_append, List.length_singleton] at hbudget
    obtain ⟨u, ht⟩ := hfirst.begins
    obtain ⟨inside, hskip, hinside⟩ := skipSpace_enclosed between behind rest '\x7d' texts
      hbefore ht rfl
    have hread := members_joinWith hbetween hbehind (.cons hfirst hrest) (List.cons_ne_nil _ _) rest
      budget (by omega)
    rw [← hinside] at hread
    rw [value_object hskip (by decide) hread, ofSettings_of_nodup hnodup]

theorem Verbal.spells (style : Style) (h : Verbal v) :
    ∀ depth, ∃ t, valueText style depth v = .ok t ∧ Spells style.ascii v t := by
  induction h with
  | null => exact fun _ => ⟨_, rfl, spells_null _⟩
  | bool b =>
    cases b with
    | true => exact fun _ => ⟨_, rfl, spells_true _⟩
    | false => exact fun _ => ⟨_, rfl, spells_false _⟩
  | text s => exact fun _ => ⟨_, rfl, spells_text _ s⟩
  | @list items _ ih =>
    intro depth
    obtain ⟨texts, htexts, hall⟩ := itemTexts_spell fun v hv => ih v hv (depth + 1)
    refine ⟨enclose style depth '[' ']' texts, ?_, spells_list hall⟩
    rw [valueText, htexts]
    rfl
  | @table entries nodup _ ih =>
    intro depth
    obtain ⟨texts, htexts, hall⟩ := memberTexts_spell fun e he => ih e he (depth + 1)
    refine ⟨enclose style depth '\x7b' '\x7d' texts, ?_, spells_table nodup hall⟩
    rw [valueText, htexts]
    rfl

/-- A text that spells a value is read as it, with any space behind it. -/
theorem Spells.read_append (h : Spells ascii v t) (hgap : Gap gap) : read (t ++ gap) = .ok v := by
  obtain ⟨c, u, ht, hstart⟩ := h.begins
  have hskip : skipSpace (t ++ gap) = t ++ gap := h.skip_gap gap_nil gap
  have hrest : skipSpace gap = [] := List.dropWhile_eq_nil_iff.mpr hgap
  have hvalue := h.reads (2 * (t ++ gap).length + 2) gap (by rw [List.length_append]; omega)
  unfold read
  split
  · rename_i heq
    rw [ht] at heq
    exact absurd (List.cons.inj heq).1 hstart.plain.2.2
  · rw [hskip, hvalue, ok_bind]
    dsimp only
    rw [hrest]
    rfl

/-- A value without numbers can be written in every style, and what was written reads back. -/
theorem read_write (style : Style) (h : Verbal v) :
    ∃ t, write style v = .ok t ∧ read t = .ok v := by
  obtain ⟨t, ht, hspells⟩ := h.spells style 0
  have hread := hspells.read_append gap_nil
  rw [List.append_nil] at hread
  exact ⟨t, ht, hread⟩

end Interop.Json
