import DiskBringup.Proofs.LastValues
import Mathlib.Data.String.Basic

/-!
# Writing boot arguments down

Settings can be written as a command line from which they are read back. A number is written in
decimal, a place as a size and a first byte with `@` between, and an argument as `key=value`; all of
these are free of blanks, so that a line of them is cut where it was put together.
-/

namespace DiskBringup.BootArgs

/-! ## Numbers -/

theorem digit?_of_isDigit {c : Char} (h : c.isDigit = true) :
    digit? 10 c = some (c.toNat - '0'.toNat) := by
  have hrange : '0' ≤ c ∧ c ≤ '9' := by
    simpa [Char.isDigit, Char.le_def, ge_iff_le] using h
  have hlt : c.toNat - 48 < 10 := by
    have hle : c.toNat ≤ 57 := hrange.2
    omega
  simp [digit?, hrange, hlt]

/-- Decimal digits have the value that the library gives them. -/
theorem digitsFrom?_eq_ofDigitChars {cs : List Char} (h : ∀ c ∈ cs, c.isDigit = true)
    (before : Nat) : digitsFrom? 10 before cs = some (Nat.ofDigitChars 10 cs before) := by
  induction cs generalizing before with
  | nil => rfl
  | cons c cs ih =>
    rw [digitsFrom?, digit?_of_isDigit (h c (by simp)), Option.bind_some,
      ih fun d hd => h d (by simp [hd]), Nat.ofDigitChars_cons]

theorem isDigit_of_mem_decimal {n : Nat} {c : Char} (h : c ∈ Nat.toDigits 10 n) :
    c.isDigit = true :=
  Nat.isDigit_of_mem_toDigits (by decide) (by decide) h

/-- A number in decimal is read back. -/
theorem number?_decimal (n : Nat) : number? (Nat.toDigits 10 n) = some n := by
  have hdigits : digits? 10 (Nat.toDigits 10 n) = some n := by
    cases h : Nat.toDigits 10 n with
    | nil => exact absurd h Nat.toDigits_ne_nil
    | cons c cs =>
      rw [digits?, ← h, digitsFrom?_eq_ofDigitChars fun c => isDigit_of_mem_decimal,
        Nat.ofDigitChars_toDigits (by decide) (by decide)]
      simp
  have hnot : ∀ c, c.isDigit = false → c ∉ Nat.toDigits 10 n := fun c hc hmem =>
    Bool.noConfusion (hc.symm.trans (isDigit_of_mem_decimal hmem))
  unfold number?
  split
  case h_1 rest h => exact absurd (h ▸ by simp) (hnot 'x' rfl)
  case h_2 rest h => exact absurd (h ▸ by simp) (hnot 'X' rfl)
  case h_3 =>
    unfold unsigned?
    split
    case h_1 rest h => exact absurd (h ▸ by simp) (hnot '+' rfl)
    case h_2 => exact hdigits

theorem byteCount?_decimal (n : Nat) : byteCount? (Nat.toDigits 10 n) = some n := by
  have hsuffix : (Nat.toDigits 10 n).getLast?.bind suffixShift? = none := by
    rw [Option.bind_eq_none_iff]
    intro c hc
    have hdigit := isDigit_of_mem_decimal (List.mem_of_getLast? hc)
    unfold suffixShift?
    split <;> first | rfl | simp [Char.isDigit] at hdigit
  rw [byteCount?, hsuffix]
  exact number?_decimal n

/-- A size in decimal is read back. -/
theorem parseSize_decimal (n : UInt64) : parseSize (toString n) = .ok n := by
  have hchars : (toString n).toList = Nat.toDigits 10 n.toNat := Nat.toList_repr
  rw [parseSize, hchars, byteCount?_decimal]
  simp [n.toNat_lt]

/-- A type byte in decimal is read back, unless it marks an unused entry. -/
theorem parseKind_decimal {kind : UInt8} (h : kind ≠ 0) : parseKind (toString kind) = .ok kind := by
  have hchars : (toString kind).toList = Nat.toDigits 10 kind.toNat := Nat.toList_repr
  have hpos : 0 < kind.toNat := by
    rw [Nat.pos_iff_ne_zero]
    exact fun hzero => h (UInt8.toNat_inj.1 hzero)
  rw [parseKind, hchars, number?_decimal]
  simp [hpos, kind.toNat_lt]

/-! ## Texts without a blank -/

/-- A text that no command line is cut in. -/
def Unbroken (text : String) : Prop := ∀ c ∈ text.toList, isBlank c = false

instance (text : String) : Decidable (Unbroken text) := List.decidableBAll _ text.toList

theorem Unbroken.append {a b : String} (ha : Unbroken a) (hb : Unbroken b) : Unbroken (a ++ b) := by
  intro c hc
  rw [String.toList_append, List.mem_append] at hc
  exact hc.elim (ha c) (hb c)

theorem unbroken_repr (n : Nat) : Unbroken n.repr := by
  intro c hc
  rw [Nat.toList_repr] at hc
  have hdigit := isDigit_of_mem_decimal hc
  simp only [Char.isDigit, Bool.and_eq_true, decide_eq_true_eq, ge_iff_le] at hdigit
  have hlow : 48 ≤ c.toNat := hdigit.1
  have hhigh : c.toNat ≤ 57 := hdigit.2
  simp only [isBlank, blankRanges, List.any_cons, List.any_nil, Bool.or_false, Bool.or_eq_false_iff,
    Bool.and_eq_false_iff, decide_eq_false_iff_not]
  omega

/-! ## Places -/

/-- A place as it stands in an argument. -/
def Place.text (p : Place) : String :=
  match p.start with
  | none => toString p.size
  | some start => toString p.size ++ "@" ++ toString start

theorem at_notMem_decimal (n : UInt64) : '@' ∉ (toString n).toList := by
  intro h
  exact absurd (isDigit_of_mem_decimal (Nat.toList_repr ▸ h)) (by decide)

/-- A place is read back. -/
theorem parsePlace_text (p : Place) : parsePlace p.text = .ok p := by
  obtain ⟨size, start⟩ := p
  cases start with
  | none =>
    have hsplit : splitOnce '@' (toString size).toList = none :=
      splitOnce_eq_none_iff.2 (at_notMem_decimal size)
    simp [parsePlace, Place.text, hsplit, parseSize_decimal]
  | some start =>
    have hsplit : splitOnce '@' (toString size ++ "@" ++ toString start).toList =
        some ((toString size).toList, (toString start).toList) :=
      splitOnce_eq_some_iff.2 ⟨by simp, at_notMem_decimal size⟩
    simp only [parsePlace, Place.text, hsplit, String.ofList_toList, parseSize_decimal]
    rfl

theorem Place.unbroken_text (p : Place) : Unbroken p.text := by
  unfold Place.text
  split
  · exact unbroken_repr _
  · exact ((unbroken_repr _).append (by decide)).append (unbroken_repr _)

/-! ## Lines -/

/-- The word that gives a key a value. -/
def settingText (key : Key) (value : String) : String := key.text ++ "=" ++ value

/-- A command line that gives keys values, in order. -/
def commandLine (settings : List (Key × String)) : String :=
  " ".intercalate (settings.map fun (key, value) => settingText key value)

/-- Words with single blanks between are the words of their line. -/
theorem words_intercalate {texts : List (List Char)}
    (h : ∀ w ∈ texts, w ≠ [] ∧ ∀ c ∈ w, isBlank c = false) :
    words ([' '].intercalate texts) = texts := by
  induction texts with
  | nil => rfl
  | cons w texts ih =>
    have hw := h w (by simp)
    have hfirst : words w = [w] := words_of_forall_not_blank hw.1 hw.2
    cases texts with
    | nil => simpa using hfirst
    | cons w' texts =>
      rw [List.intercalate_cons_cons, List.append_assoc, List.singleton_append,
        words_append_blank (by decide), hfirst, ih fun w hmem => h w (by simp [hmem])]
      rfl

theorem ofWord_settingText (key : Key) (value : String) :
    Argument.ofWord (settingText key value).toList = .setting key value := by
  have hsplit : splitOnce '=' (settingText key value).toList =
      some (key.text.toList, value.toList) := by
    refine splitOnce_eq_some_iff.2 ⟨by simp [settingText], ?_⟩
    cases key <;> decide
  simp [Argument.ofWord, hsplit]

/-- A line that was put together is cut into its arguments again. -/
theorem arguments_commandLine {settings : List (Key × String)}
    (h : ∀ setting ∈ settings, Unbroken setting.2) :
    arguments (commandLine settings) =
      settings.map fun (key, value) => Argument.setting key value := by
  have hkey : ∀ key : Key, Unbroken (key.text ++ "=") := by
    intro key
    cases key <;> decide
  have hwords : words (commandLine settings).toList =
      settings.map fun (key, value) => (settingText key value).toList := by
    rw [commandLine, String.toList_intercalate, List.map_map]
    refine words_intercalate fun w hw => ?_
    obtain ⟨⟨key, value⟩, hmem, rfl⟩ := List.mem_map.1 hw
    exact ⟨by simp [settingText], (hkey key).append (h _ hmem)⟩
  rw [arguments, hwords, List.map_map]
  exact List.map_congr_left fun ⟨key, value⟩ _ => ofWord_settingText key value

/-! ## Settings -/

/-- A mount point that boot arguments can give: an absolute path with a name and without a
blank. -/
structure IsMountPoint (text : String) : Prop where
  /-- it starts with a slash -/
  absolute : text.toList.head? = some '/'
  /-- it does not end there -/
  named : 2 ≤ text.utf8ByteSize
  /-- it stays in one word -/
  unbroken : Unbroken text

/-- A slash with anything after it is two bytes, whatever that is. -/
theorem parseMount_eq_ok_iff {text mount : String} :
    parseMount text = .ok mount ↔
      mount = text ∧ text.toList.head? = some '/' ∧ 2 ≤ text.utf8ByteSize := by
  have hsize : text.utf8ByteSize = String.utf8Len text.toList := by
    rw [← String.utf8ByteSize_ofList, String.ofList_toList]
  rw [hsize, parseMount]
  split
  case h_1 c rest h =>
    have hpos := c.utf8Size_pos
    have hslash : '/'.utf8Size = 1 := rfl
    simp only [h, Except.ok.injEq, List.head?_cons, String.utf8Len_cons, true_and, eq_comm]
    refine ⟨fun heq => ⟨heq, by omega⟩, fun heq => heq.1⟩
  case h_2 hno =>
    refine ⟨fun h => (by cases h), fun ⟨_, hhead, hlen⟩ => ?_⟩
    obtain ⟨rest, hrest⟩ := List.head?_eq_some_iff.1 hhead
    cases rest with
    | nil => simp [hrest, show '/'.utf8Size = 1 from rfl] at hlen
    | cons c rest => exact absurd hrest (hno c rest)

namespace Settings

/-- Settings that boot arguments can come to. -/
structure Writable (s : Settings) : Prop where
  /-- no partition is marked unused -/
  kind : s.kind ≠ some 0
  /-- the primary mount point is one -/
  mountPrimary : ∀ mount, s.mountPrimary = some mount → IsMountPoint mount
  /-- the secondary mount point is one -/
  mountSecondary : ∀ mount, s.mountSecondary = some mount → IsMountPoint mount

/-- What settings say about a key, as it stands in an argument. -/
def text? (s : Settings) : Key → Option String
  | .primary => s.primary.map Place.text
  | .secondary => s.secondary.map Place.text
  | .mountPrimary => s.mountPrimary
  | .mountSecondary => s.mountSecondary
  | .autoPartition => s.autoPartition.map fun auto => if auto then "yes" else "no"
  | .kind => s.kind.map toString

/-- A command line that comes to the settings. -/
def line (s : Settings) : String :=
  commandLine (Key.all.filterMap fun key => (s.text? key).map (key, ·))

theorem Writable.unbroken {s : Settings} (hs : s.Writable) {key : Key} {value : String}
    (h : s.text? key = some value) : Unbroken value := by
  cases key with
  | primary | secondary =>
    obtain ⟨place, -, rfl⟩ := Option.map_eq_some_iff.1 h
    exact place.unbroken_text
  | mountPrimary => exact (hs.mountPrimary value h).unbroken
  | mountSecondary => exact (hs.mountSecondary value h).unbroken
  | autoPartition =>
    obtain ⟨auto, -, rfl⟩ := Option.map_eq_some_iff.1 h
    cases auto <;> decide
  | kind =>
    obtain ⟨kind, -, rfl⟩ := Option.map_eq_some_iff.1 h
    exact unbroken_repr _

theorem parseBool_text (auto : Bool) : parseBool (if auto then "yes" else "no") = .ok auto := by
  cases auto <;> decide

/-- What is written down is fit to be read. -/
theorem Writable.fits {s : Settings} (hs : s.Writable) {key : Key} {value : String}
    (h : s.text? key = some value) : key.fault? value = none := by
  cases key with
  | primary | secondary =>
    obtain ⟨place, -, rfl⟩ := Option.map_eq_some_iff.1 h
    simp [Key.fault?, parsePlace_text, refusal?]
  | mountPrimary =>
    obtain ⟨absolute, named, -⟩ := hs.mountPrimary value h
    simp [Key.fault?, parseMount_eq_ok_iff.2 ⟨rfl, absolute, named⟩, refusal?]
  | mountSecondary =>
    obtain ⟨absolute, named, -⟩ := hs.mountSecondary value h
    simp [Key.fault?, parseMount_eq_ok_iff.2 ⟨rfl, absolute, named⟩, refusal?]
  | autoPartition =>
    obtain ⟨auto, -, rfl⟩ := Option.map_eq_some_iff.1 h
    simp [Key.fault?, parseBool_text, refusal?]
  | kind =>
    obtain ⟨kind, hkind, rfl⟩ := Option.map_eq_some_iff.1 h
    have hne : kind ≠ 0 := fun hzero => hs.kind (hzero ▸ hkind)
    simp [Key.fault?, parseKind_decimal hne, refusal?]

/-- What is written down is read as it was. -/
theorem Writable.ofValues_text? {s : Settings} (hs : s.Writable) : ofValues s.text? = s := by
  obtain ⟨primary, secondary, mountPrimary, mountSecondary, autoPartition, kind⟩ := s
  have hmount : ∀ mount, IsMountPoint mount → parseMount mount = .ok mount :=
    fun mount h => parseMount_eq_ok_iff.2 ⟨rfl, h.absolute, h.named⟩
  simp only [ofValues, text?, mk.injEq]
  refine ⟨?_, ?_, ?_, ?_, ?_, ?_⟩
  · cases primary <;> simp [parsePlace_text, Except.toOption]
  · cases secondary <;> simp [parsePlace_text, Except.toOption]
  · cases mountPrimary with
    | none => rfl
    | some mount => simp [hmount mount (hs.mountPrimary mount rfl), Except.toOption]
  · cases mountSecondary with
    | none => rfl
    | some mount => simp [hmount mount (hs.mountSecondary mount rfl), Except.toOption]
  · cases autoPartition <;> simp [parseBool_text, Except.toOption]
  · cases kind with
    | none => rfl
    | some kind =>
      have hne : kind ≠ 0 := fun hzero => hs.kind (congrArg some hzero)
      simp [parseKind_decimal hne, Except.toOption]

/-- Every key gets one argument, so that its last value is the one written down. -/
theorem lastValue?_texts (text? : Key → Option String) (key : Key) :
    lastValue? key (Key.all.filterMap fun k => (text? k).map (Argument.setting k)) = text? key := by
  have hvalue : ∀ k, ((text? k).map (Argument.setting k)).bind (Argument.value? key) =
      if k = key then text? k else none := by
    intro k
    cases text? k <;> simp [Argument.value?]
  simp only [lastValue?, List.filterMap_filterMap, hvalue]
  cases key <;> cases h : text? _ <;> simp [Key.all, h]

/-- Settings are read back from the line that comes to them. -/
theorem Writable.value_parse_line {s : Settings} (hs : s.Writable) :
    (parse s.line).value = s.config := by
  have harguments : arguments s.line =
      Key.all.filterMap fun key => (s.text? key).map (Argument.setting key) := by
    rw [line, arguments_commandLine, List.map_filterMap]
    · simp [Option.map_map, Function.comp_def]
    · intro setting hmem
      obtain ⟨key, -, hkey⟩ := List.mem_filterMap.1 hmem
      obtain ⟨value, hvalue, rfl⟩ := Option.map_eq_some_iff.1 hkey
      exact hs.unbroken hvalue
  have hfit : firstFault? (arguments s.line) = none := by
    rw [harguments, firstFault?, List.findSome?_eq_none_iff]
    intro arg hmem
    obtain ⟨key, -, hkey⟩ := List.mem_filterMap.1 hmem
    obtain ⟨value, hvalue, rfl⟩ := Option.map_eq_some_iff.1 hkey
    exact hs.fits hvalue
  rw [value_parse, hfit, harguments]
  simp only [lastValue?_texts, hs.ofValues_text?]

end Settings

end DiskBringup.BootArgs
