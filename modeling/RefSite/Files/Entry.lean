import RefSite.Files.Path

namespace RefSite

/-- What a name in a folder stands for. The names in a folder are distinct. -/
inductive Entry where
  | file (content : ByteArray)
  | link (target : String)
  | folder (entries : List (String × Entry))
  deriving Inhabited

namespace Entry

def isFolder : Entry → Bool
  | folder _ => true
  | _ => false

/-- The entries of a folder; nothing else has any. -/
def entries : Entry → List (String × Entry)
  | folder es => es
  | _ => []

def at? : Entry → List String → Option Entry
  | e, [] => some e
  | folder es, n :: ns => (es.lookup n).bind fun e => at? e ns
  | _, _ :: _ => none

/-- The entries with one name set; a new name comes last. -/
def setName (n : String) (e : Entry) : List (String × Entry) → List (String × Entry)
  | [] => [(n, e)]
  | (m, x) :: es => if m = n then (n, e) :: es else (m, x) :: setName n e es

/-- The tree with an entry put at a place whose folder is there. -/
def put (new : Entry) : List String → Entry → Entry
  | [], _ => new
  | n :: ns, folder es =>
    match ns, es.lookup n with
    | [], _ => folder (setName n new es)
    | _ :: _, some e => folder (setName n (put new ns e) es)
    | _ :: _, none => folder es
  | _ :: _, e => e

mutual

/-- Every entry below, with its path, parents before their entries. -/
def descendants (above : List String) : Entry → List (List String × Entry)
  | folder es => allDescendants above es
  | _ => []

def allDescendants (above : List String) : List (String × Entry) → List (List String × Entry)
  | [] => []
  | (n, e) :: es =>
    (above ++ [n], e) :: descendants (above ++ [n]) e ++ allDescendants above es

end

theorem at_nil (e : Entry) : e.at? [] = some e := by cases e <;> rfl

theorem lookup_setName_self (n : String) (e : Entry) (es : List (String × Entry)) :
    (setName n e es).lookup n = some e := by
  induction es with
  | nil => simp [setName]
  | cons x xs ih =>
    obtain ⟨m, y⟩ := x
    by_cases h : m = n
    · simp [setName, h]
    · have hb : (n == m) = false := beq_false_of_ne (Ne.symm h)
      simp [setName, h, List.lookup_cons, hb, ih]

theorem lookup_setName_of_ne {m n : String} (h : m ≠ n) (e : Entry) (es : List (String × Entry)) :
    (setName n e es).lookup m = es.lookup m := by
  induction es with
  | nil => simp [setName, h]
  | cons x xs ih =>
    obtain ⟨k, y⟩ := x
    by_cases hk : k = n
    · subst hk
      have hb : (m == k) = false := beq_false_of_ne h
      simp [setName, List.lookup_cons, hb]
    · simp [setName, hk, List.lookup_cons, ih]

end Entry

end RefSite
