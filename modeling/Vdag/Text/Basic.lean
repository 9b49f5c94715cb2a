/-! Operations on text that several formats share: blanks, leading parts, first occurrences. -/
namespace Vdag.Text

def isBlankChar (c : Char) : Bool :=
  let n := c.toNat
  (0x9 ≤ n && n ≤ 0xd) || n == 0x20 || n == 0x85 || n == 0xa0 || n == 0x1680 || (0x2000 ≤ n && n ≤ 0x200a) ||
    n == 0x2028 || n == 0x2029 || n == 0x202f || n == 0x205f || n == 0x3000

def isBlank (text : String) : Bool := text.toList.all isBlankChar

def afterFront : (front list : List Char) → Option (List Char)
  | [], list => some list
  | _ :: _, [] => none
  | c :: front, d :: list => if c = d then afterFront front list else none

theorem afterFrontAppend (front list : List Char) : afterFront front (front ++ list) = some list := by
  induction front with
  | nil => rfl
  | cons c front ih => simp [afterFront, ih]

theorem eqAppendOfAfterFront {front list rest : List Char} (h : afterFront front list = some rest) :
    list = front ++ rest := by
  induction front generalizing list with
  | nil => simpa [afterFront] using h
  | cons c front ih =>
      cases list with
      | nil => simp [afterFront] at h
      | cons d list =>
          simp only [afterFront] at h
          split at h
          · rename_i same; simp [same, ih h]
          · cases h

def splitAtFirst (mark : List Char) : List Char → Option (List Char × List Char)
  | [] => (afterFront mark []).map ([], ·)
  | c :: list =>
      match afterFront mark (c :: list) with
      | some rest => some ([], rest)
      | none => (splitAtFirst mark list).map (fun parts => (c :: parts.1, parts.2))

def occurs (mark list : List Char) : Bool := (splitAtFirst mark list).isSome

theorem eqAppendOfSplitAtFirst {mark list before after : List Char}
    (h : splitAtFirst mark list = some (before, after)) : list = before ++ mark ++ after := by
  induction list generalizing before with
  | nil =>
      simp only [splitAtFirst, Option.map_eq_some_iff] at h
      obtain ⟨rest, found, same⟩ := h
      cases same
      simpa using eqAppendOfAfterFront found
  | cons c list ih =>
      simp only [splitAtFirst] at h
      split at h
      · rename_i rest found
        cases h
        simpa using eqAppendOfAfterFront found
      · simp only [Option.map_eq_some_iff] at h
        obtain ⟨parts, found, same⟩ := h
        cases same
        simpa using ih found

def dropFront? (front text : String) : Option String :=
  (afterFront front.toList text.toList).map String.ofList

def splitFirst? (mark text : String) : Option (String × String) :=
  (splitAtFirst mark.toList text.toList).map (fun parts => (String.ofList parts.1, String.ofList parts.2))

def contains (text mark : String) : Bool := occurs mark.toList text.toList

def trimEnd (c : Char) (text : String) : String :=
  String.ofList (text.toList.reverse.dropWhile (· == c)).reverse

def joined (separator : String) (parts : List String) : String := separator.intercalate parts

end Vdag.Text
