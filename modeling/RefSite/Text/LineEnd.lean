namespace RefSite

/-- The bytes of a text are those of its characters one by one. -/
theorem data_toUTF8 (s : String) :
    s.toUTF8.data.toList = s.toList.flatMap String.utf8EncodeChar := by
  have hbytes : (String.ofList s.toList).toByteArray.data.toList =
      s.toList.flatMap String.utf8EncodeChar := by
    rw [String.toByteArray_ofList, List.utf8Encode, List.data_toByteArray]
  rwa [String.ofList_toList] at hbytes

/-- The bytes of a text are read back as that text. -/
theorem fromUTF8_toUTF8 (s : String) : String.fromUTF8? s.toUTF8 = some s :=
  dif_pos s.isValidUTF8

inductive LineEnd where
  | crlf
  | lf
  | native
  deriving DecidableEq, Repr, Inhabited

namespace LineEnd

def all : List LineEnd := [.crlf, .lf, .native]

def setting : LineEnd → String
  | crlf => "crlf"
  | lf => "lf"
  | native => "os"

def ofSetting? (s : String) : Option LineEnd := all.find? fun k => k.setting == s

/-- The characters written for one line break; the native ones are a single line feed. -/
def chars : LineEnd → List Char
  | crlf => ['\r', '\n']
  | lf => ['\n']
  | native => ['\n']

/-- One scan from the left: a carriage return with a line feed after it, a carriage return alone
and a line feed alone each count as one line feed. -/
def unify : List Char → List Char
  | [] => []
  | '\r' :: '\n' :: cs => '\n' :: unify cs
  | c :: cs => (if c = '\r' then '\n' else c) :: unify cs

def expand (k : LineEnd) (cs : List Char) : List Char :=
  cs.flatMap fun c => if c = '\n' then k.chars else [c]

def apply (k : LineEnd) (s : String) : String := String.ofList (k.expand (unify s.toList))

theorem ofSetting_setting (k : LineEnd) : ofSetting? k.setting = some k := by
  cases k <;> decide

/-- The byte is not part of a line end. -/
def isInk (b : UInt8) : Bool := b != 10 && b != 13

/-- The bytes of a text that are not part of line ends. -/
def ink (s : String) : List UInt8 := s.toUTF8.data.toList.filter isInk

theorem ink_ofList (cs : List Char) :
    ink (String.ofList cs) = cs.flatMap fun c => (String.utf8EncodeChar c).filter isInk := by
  rw [ink, data_toUTF8, String.toList_ofList, List.filter_flatMap]

theorem ink_append (s t : String) : ink (s ++ t) = ink s ++ ink t := by
  rw [ink, ink, ink, data_toUTF8, data_toUTF8, data_toUTF8, String.toList_append,
    List.flatMap_append, List.filter_append]

/-- A convention changes nothing but line ends. -/
theorem ink_apply (k : LineEnd) (s : String) : ink (k.apply s) = ink s := by
  have hink (cs : List Char) : ink (String.ofList (k.expand (unify cs))) = ink (String.ofList cs) := by
    have hends : k.chars.flatMap (fun c => (String.utf8EncodeChar c).filter isInk) = [] := by
      cases k <;> decide
    rw [ink_ofList, ink_ofList, expand, List.flatMap_assoc]
    induction cs using unify.induct with
    | case1 => rfl
    | case2 cs ih =>
      rw [unify, List.flatMap_cons, if_pos rfl, hends, ih]
      rfl
    | case3 c cs hne ih =>
      rw [unify, List.flatMap_cons, List.flatMap_cons, ih]
      · congr 1
        by_cases hreturn : c = '\r'
        · subst hreturn
          rw [if_pos rfl, if_pos rfl, hends]
          rfl
        · rw [if_neg hreturn]
          by_cases hfeed : c = '\n'
          · subst hfeed
            rw [if_pos rfl, hends]
            rfl
          · rw [if_neg hfeed, List.flatMap_singleton]
      · exact hne
  rw [apply, hink, String.ofList_toList]

/-- Texts whose line ends were chosen are the same bytes only if they are the same but for these. -/
theorem ink_eq_of_apply {k k' : LineEnd} {s s' : String}
    (h : (k.apply s).toUTF8 = (k'.apply s').toUTF8) : ink s = ink s' := by
  rw [← ink_apply k s, ← ink_apply k' s', ink, ink, h]

end LineEnd

end RefSite
