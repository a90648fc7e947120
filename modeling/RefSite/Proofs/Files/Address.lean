import Mathlib.Data.List.Basic
import Mathlib.Data.List.TakeWhile
import RefSite.Files.Path
import RefSite.Text.LineEnd
import RefSite.Text.Quoted
import RefSite.Yaml.Words

namespace RefSite

theorem splitAt_of_notMem {sep : Char} {cs : List Char} (h : sep ∉ cs) : splitAt sep cs = [cs] := by
  induction cs with
  | nil => rfl
  | cons c cs ih =>
    obtain ⟨hc, hcs⟩ := not_or.1 (mt List.mem_cons.2 h)
    rw [splitAt, if_neg (Ne.symm hc), ih hcs]

theorem splitAt_append_cons {sep : Char} {cs : List Char} (h : sep ∉ cs) (ds : List Char) :
    splitAt sep (cs ++ sep :: ds) = cs :: splitAt sep ds := by
  induction cs with
  | nil => rw [List.nil_append, splitAt, if_pos rfl]
  | cons c cs ih =>
    obtain ⟨hc, hcs⟩ := not_or.1 (mt List.mem_cons.2 h)
    rw [List.cons_append, splitAt, if_neg (Ne.symm hc), ih hcs]

namespace Address

/-- Letters and digits of ASCII and four signs stand for themselves in every address. -/
def isUnreserved (c : Char) : Bool :=
  c.isAlphanum || c = '-' || c = '.' || c = '_' || c = '~'

/-- A percent sign and two digits for a byte. -/
def escapeByte (b : UInt8) : List Char := '%' :: (Text.hexDigits 2 b.toNat).map Char.toUpper

/-- A character in an address; slashes stay between the parts. -/
def encodeChar (c : Char) : List Char :=
  if isUnreserved c || c = '/' then [c] else (String.utf8EncodeChar c).flatMap escapeByte

/-- The address of a text, with escapes for all that may not stand in one. -/
def encode (s : String) : String := String.ofList (s.toList.flatMap encodeChar)

/-- The bytes that a part of an address stands for, if its escapes are complete. -/
def bytes? : List Char → Option (List UInt8)
  | [] => some []
  | '%' :: c :: c' :: cs =>
    match Yaml.hexValue? c, Yaml.hexValue? c' with
    | some high, some low => (bytes? cs).map (UInt8.ofNat (16 * high + low) :: ·)
    | _, _ => none
  | '%' :: _ => none
  | c :: cs => (bytes? cs).map (String.utf8EncodeChar c ++ ·)

def decode? (cs : List Char) : Option String :=
  (bytes? cs).bind fun bs => String.fromUTF8? ⟨bs.toArray⟩

/-- A path that goes on with a part of an address: a double dot leads up, a name leads down. A file
has no slash and no null character in its name. -/
def step (p : Path) (part : List Char) : Option Path :=
  (decode? part).bind fun name =>
    if name = "" ∨ name = "." then some p
    else if name = ".." then some p.parent
    else if '/' ∈ name.toList ∨ '\x00' ∈ name.toList then none
    else some (p.child name)

/-- The file that an address leads to from the pages in a folder. What comes after a question mark or
a number sign does not count. There is none for an address that is empty, starts with a slash or
names a scheme. -/
def target? (folder : Path) (address : String) : Option Path :=
  match splitAt '/' (address.toList.takeWhile fun c => c != '?' && c != '#') with
  | [] => none
  | first :: rest =>
    if first = [] ∨ ':' ∈ first then none else (first :: rest).foldlM step folder

example : encode "a b/ü.html" = "a%20b/%C3%BC.html" := by decide +kernel

example : target? (Path.ofText "out") "x/%2e%2e/a%20b?c#d" = some (Path.ofText "out/a b") := by
  decide +kernel

theorem encode_eq_self {s : String} (h : ∀ c ∈ s.toList, isUnreserved c = true ∨ c = '/') :
    encode s = s := by
  have hchars : s.toList.flatMap encodeChar = s.toList.flatMap fun c => [c] := by
    refine List.flatMap_congr fun c hc => ?_
    rw [encodeChar, if_pos (by simpa using h c hc)]
  rw [encode, hchars, List.flatMap_singleton', String.ofList_toList]

theorem escapeByte_eq (b : UInt8) : escapeByte b =
    ['%', (Text.hexDigit (b.toNat / 16)).toUpper, (Text.hexDigit b.toNat).toUpper] := rfl

/-- A digit of an escape is an upper-case letter or a decimal digit, and it tells its value. -/
theorem digit_of_escape (n : Nat) : isUnreserved (Text.hexDigit n).toUpper = true ∧
    Yaml.hexValue? (Text.hexDigit n).toUpper = some (n % 16) := by
  have hdigits : ∀ m < 16, isUnreserved (Text.hexDigit m).toUpper = true ∧
      Yaml.hexValue? (Text.hexDigit m).toUpper = some m := by
    decide +kernel
  have hmod : Text.hexDigit n = Text.hexDigit (n % 16) := by
    rw [Text.hexDigit, Text.hexDigit, Nat.mod_mod]
  rw [hmod]
  exact hdigits (n % 16) (Nat.mod_lt n (by decide))

theorem bytes_escapeByte (b : UInt8) (cs : List Char) :
    bytes? (escapeByte b ++ cs) = (bytes? cs).map (b :: ·) := by
  have hvalue : 16 * (b.toNat / 16 % 16) + b.toNat % 16 = b.toNat := by
    have hb := b.toNat_lt
    omega
  rw [escapeByte_eq, List.cons_append, List.cons_append, List.cons_append, List.nil_append, bytes?,
    (digit_of_escape _).2, (digit_of_escape _).2]
  dsimp only
  rw [hvalue, UInt8.ofNat_toNat]

theorem bytes_encodeChar (c : Char) (cs : List Char) :
    bytes? (encodeChar c ++ cs) = (bytes? cs).map (String.utf8EncodeChar c ++ ·) := by
  have hescaped (bs : List UInt8) :
      bytes? (bs.flatMap escapeByte ++ cs) = (bytes? cs).map (bs ++ ·) := by
    induction bs with
    | nil => simp
    | cons b bs ih =>
      rw [List.flatMap_cons, List.append_assoc, bytes_escapeByte, ih, Option.map_map]
      rfl
  rw [encodeChar]
  split
  · next h =>
    have hc : c ≠ '%' := by
      rintro rfl
      exact absurd h (by decide)
    rw [List.singleton_append, bytes?]
    · exact fun _ _ _ hpercent _ => hc hpercent
    · exact hc
  · exact hescaped _

/-- What is encoded is decoded to the same text. -/
theorem decode_encode (s : String) : decode? (encode s).toList = some s := by
  have hbytes (cs : List Char) :
      bytes? (cs.flatMap encodeChar) = some (cs.flatMap String.utf8EncodeChar) := by
    induction cs with
    | nil => rfl
    | cons c cs ih =>
      rw [List.flatMap_cons, bytes_encodeChar, ih]
      rfl
  have hutf8 : (⟨(s.toList.flatMap String.utf8EncodeChar).toArray⟩ : ByteArray) = s.toUTF8 := by
    rw [← data_toUTF8, Array.toArray_toList]
  rw [encode, String.toList_ofList, decode?, hbytes, Option.bind_some, hutf8, fromUTF8_toUTF8]

/-- An address has no characters but unreserved ones, percent signs, and the slashes of the text. -/
theorem mem_encodeChar {c d : Char} (h : d ∈ encodeChar c) :
    isUnreserved d = true ∨ d = '%' ∨ (d = '/' ∧ c = '/') := by
  rw [encodeChar] at h
  split at h
  · next hc =>
    obtain rfl := List.mem_singleton.1 h
    rw [Bool.or_eq_true, decide_eq_true_eq] at hc
    rcases hc with hc | hc
    · exact .inl hc
    · exact .inr (.inr ⟨hc, hc⟩)
  · obtain ⟨b, -, hd⟩ := List.mem_flatMap.1 h
    rw [escapeByte_eq, List.mem_cons, List.mem_cons, List.mem_singleton] at hd
    rcases hd with rfl | rfl | rfl
    · exact .inr (.inl rfl)
    · exact .inl (digit_of_escape _).1
    · exact .inl (digit_of_escape _).1

theorem step_self (p : Path) : step p ['.'] = some p := rfl

/-- The address of a file name, seen from the folder, leads to the child of that name. -/
theorem target_encode {name : String} (hne : name ≠ "" ∧ name ≠ "." ∧ name ≠ "..")
    (hslash : '/' ∉ name.toList) (hnull : '\x00' ∉ name.toList) (folder : Path) :
    target? folder (encode ("./" ++ name)) = some (folder.child name) := by
  let part := (encode name).toList
  have hpart {d : Char} (h : d ∈ part) : isUnreserved d = true ∨ d = '%' := by
    rw [show part = name.toList.flatMap encodeChar from String.toList_ofList] at h
    obtain ⟨c, hc, hd⟩ := List.mem_flatMap.1 h
    rcases mem_encodeChar hd with hd | hd | ⟨-, rfl⟩
    · exact .inl hd
    · exact .inr hd
    · exact absurd hc hslash
  have haddress : (encode ("./" ++ name)).toList = ['.'] ++ '/' :: part := by
    rw [encode, String.toList_ofList, String.toList_append, List.flatMap_append]
    exact congrArg _ String.toList_ofList.symm
  -- nothing in an encoded name ends the path of an address or one of its parts
  have hkept : (['.'] ++ '/' :: part).takeWhile (fun c => c != '?' && c != '#') =
      ['.'] ++ '/' :: part := by
    refine List.takeWhile_eq_self_iff.2 fun d hd => ?_
    rcases List.mem_append.1 hd with hd | hd
    · obtain rfl := List.mem_singleton.1 hd
      decide
    · rcases List.mem_cons.1 hd with rfl | hd
      · decide
      · have hother : d ≠ '?' ∧ d ≠ '#' := by
          constructor <;> rintro rfl <;> exact absurd (hpart hd) (by decide)
        simpa using hother
  have hparts : splitAt '/' (['.'] ++ '/' :: part) = [['.'], part] := by
    rw [splitAt_append_cons (by decide), splitAt_of_notMem]
    exact fun h => absurd (hpart h) (by decide)
  have hstep : step folder part = some (folder.child name) := by
    rw [step, decode_encode, Option.bind_some, if_neg (not_or.2 ⟨hne.1, hne.2.1⟩), if_neg hne.2.2,
      if_neg (not_or.2 ⟨hslash, hnull⟩)]
  rw [target?, haddress, hkept, hparts]
  dsimp only
  rw [if_neg (by decide), List.foldlM_cons, step_self, Option.bind_eq_bind, Option.bind_some,
    List.foldlM_cons, hstep, Option.bind_eq_bind, Option.bind_some, List.foldlM_nil]
  rfl

end Address

end RefSite
