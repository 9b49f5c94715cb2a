import Vdag.Json.Reading
import Vdag.Proofs.Json.Lexing
import Vdag.Proofs.SortedMap

/-! Values printed and read again: first as tokens, then as a tree, then as the value they were. -/
namespace Vdag.Json
open Token

/- A value that can be read back: faithful numbers, members in key order, and no more than so many levels. -/
inductive Plain : Nat → Value → Prop
  | null (levels : Nat) : Plain levels .null
  | bool (levels : Nat) (value : Bool) : Plain levels (.bool value)
  | number (levels : Nat) (number : Number) (faithful : number.faithful = true) : Plain levels (.number number)
  | string (levels : Nat) (text : String) : Plain levels (.string text)
  | array {levels : Nat} {items : List Value} (each : ∀ item ∈ items, Plain levels item) :
      Plain (levels + 1) (.array items)
  | object {levels : Nat} {members : List (String × Value)}
      (ascending : members.Pairwise (fun a b => KeyOrder.Before a.1 b.1))
      (each : ∀ entry ∈ members, Plain levels entry.2) : Plain (levels + 1) (.object members)

mutual

def Value.tokens : Value → List Token
  | .null => [.null]
  | .bool value => [.bool value]
  | .number value => [.number (some value)]
  | .string text => [.string (some text)]
  | .array items => .openArray :: (itemTokens items ++ [.closeArray])
  | .object members => .openObject :: (memberTokens members ++ [.closeObject])

def itemTokens : List Value → List Token
  | [] => []
  | [item] => item.tokens
  | item :: rest => item.tokens ++ .comma :: itemTokens rest

def memberTokens : List (String × Value) → List Token
  | [] => []
  | [(key, value)] => .string (some key) :: .colon :: value.tokens
  | (key, value) :: rest => .string (some key) :: .colon :: (value.tokens ++ .comma :: memberTokens rest)

end

mutual

def Value.tree : Value → Tree
  | .null => .null
  | .bool value => .bool value
  | .number value => .number (some value)
  | .string text => .string (some text)
  | .array items => .array (itemTrees items)
  | .object members => .object (memberTrees members)

def itemTrees : List Value → List Tree
  | [] => []
  | item :: rest => item.tree :: itemTrees rest

def memberTrees : List (String × Value) → List (Option String × Tree)
  | [] => []
  | (key, value) :: rest => (some key, value.tree) :: memberTrees rest

end

section Lexing

/- A text of which the first part makes these tokens, however much fuel there is beyond its length. -/
def Lexes (text : List Char) (tokens : List Token) (left : List Char) : Prop :=
  ∀ steps, text.length ≤ steps → ∃ steps', lex steps text = tokens ++ lex steps' left ∧ left.length ≤ steps'

theorem Lexes.trans {a b c : List Char} {first later : List Token} (lexes : Lexes a first b)
    (lexes' : Lexes b later c) : Lexes a (first ++ later) c := by
  intro steps enough
  obtain ⟨steps', ran, enough⟩ := lexes steps enough
  obtain ⟨steps'', ran', enough⟩ := lexes' steps' enough
  exact ⟨steps'', by rw [ran, ran', List.append_assoc], enough⟩

theorem Lexes.refl (text : List Char) : Lexes text [] text := fun steps enough => ⟨steps, rfl, enough⟩

theorem headNotSpace {c : Char} {more left : List Char} {token : Token}
    (found : next (c :: more) = some (token, left)) : isSpace c = false := by
  by_contra space
  simp only [isSpace, Bool.not_eq_false, Bool.or_eq_true, beq_iff_eq] at space
  rcases space with ((rfl | rfl) | rfl) | rfl <;> cases found

theorem lexesOne {piece left : List Char} {token : Token} (some_text : piece ≠ [])
    (found : next (piece ++ left) = some (token, left)) : Lexes (piece ++ left) [token] left := by
  cases piece with
  | nil => exact absurd rfl some_text
  | cons c more =>
    intro steps enough
    cases steps with
    | zero => simp at enough
    | succ steps =>
      rw [List.cons_append] at found enough ⊢
      refine ⟨steps, ?_, by simp at enough; omega⟩
      rw [lex, headNotSpace found, if_neg (by decide), found]
      rfl

theorem lexesMark {c : Char} {token : Token} (left : List Char) (found : next (c :: left) = some (token, left)) :
    Lexes (c :: left) [token] left := @lexesOne [c] left token nofun found

def Printed (value : Value) : Prop := ∀ rest, Breaks rest → Lexes (value.chars ++ rest) value.tokens rest

theorem breaksMark {c : Char} (mark : c = ',' ∨ c = ']' ∨ c = '\x7d') (rest : List Char) : Breaks (c :: rest) := by
  intro other same
  cases same
  exact mark

theorem itemCharsCons (item other : Value) (more : List Value) :
    itemChars (item :: other :: more) = item.chars ++ ',' :: itemChars (other :: more) := itemChars.eq_3 _ _ nofun

theorem itemTokensCons (item other : Value) (more : List Value) :
    itemTokens (item :: other :: more) = item.tokens ++ .comma :: itemTokens (other :: more) :=
      itemTokens.eq_3 _ _ nofun

theorem memberCharsCons (key : String) (value : Value) (other : String × Value) (more : List (String × Value)) :
    memberChars ((key, value) :: other :: more) =
      quotedChars key ++ ':' :: (value.chars ++ ',' :: memberChars (other :: more)) := memberChars.eq_3 _ _ _ nofun

theorem memberTokensCons (key : String) (value : Value) (other : String × Value) (more : List (String × Value)) :
    memberTokens ((key, value) :: other :: more) =
      .string (some key) :: .colon :: (value.tokens ++ .comma :: memberTokens (other :: more)) :=
  memberTokens.eq_3 _ _ _ nofun

theorem lexesItems {items : List Value} (each : ∀ item ∈ items, Printed item) {rest : List Char}
    (breaks : Breaks rest) : Lexes (itemChars items ++ rest) (itemTokens items) rest := by
  induction items with
  | nil => exact .refl rest
  | cons item more ih =>
    cases more with
    | nil => exact each item List.mem_cons_self rest breaks
    | cons other more =>
      have later := ih (fun item member => each item (List.mem_cons_of_mem _ member))
      have first := each item List.mem_cons_self (',' :: (itemChars (other :: more) ++ rest)) (breaksMark (.inl rfl) _)
      rw [itemCharsCons, itemTokensCons, List.append_assoc]
      exact first.trans ((lexesMark _ rfl).trans later)

theorem lexesQuoted (text : String) (left : List Char) : Lexes (quotedChars text ++ left) [.string (some text)] left :=
  lexesOne (List.cons_ne_nil _ _) (stringLexes text left)

theorem lexesKey (key : String) (left : List Char) :
    Lexes (quotedChars key ++ ':' :: left) [.string (some key), .colon] left :=
  (lexesQuoted key _).trans (lexesMark _ rfl)

theorem lexesMembers {members : List (String × Value)} (each : ∀ entry ∈ members, Printed entry.2) {rest : List Char}
    (breaks : Breaks rest) : Lexes (memberChars members ++ rest) (memberTokens members) rest := by
  induction members with
  | nil => exact .refl rest
  | cons entry more ih =>
    obtain ⟨key, value⟩ := entry
    cases more with
    | nil =>
      rw [memberChars, memberTokens, List.append_assoc, List.cons_append]
      exact (lexesKey key _).trans (each _ List.mem_cons_self rest breaks)
    | cons other more =>
      have later := ih (fun entry member => each entry (List.mem_cons_of_mem _ member))
      have first := each _ List.mem_cons_self (',' :: (memberChars (other :: more) ++ rest)) (breaksMark (.inl rfl) _)
      rw [memberCharsCons, memberTokensCons, List.append_assoc, List.cons_append, List.append_assoc]
      exact (lexesKey key _).trans (first.trans ((lexesMark _ rfl).trans later))

theorem Plain.plainPrinted {levels : Nat} {value : Value} (plain : Plain levels value) : Printed value := by
  induction plain with
  | null levels => exact fun rest _ => lexesOne nofun rfl
  | bool levels value =>
    intro rest _
    cases value
    · exact lexesOne nofun rfl
    · exact lexesOne nofun rfl
  | number levels number faithful =>
    refine fun rest breaks => lexesOne (fun empty => ?_) (faithfulLexes faithful breaks)
    have alone := @faithfulLexes [] number faithful nofun
    rw [show number.chars = [] from empty] at alone
    cases alone
  | string levels text => exact fun rest _ => lexesQuoted text rest
  | array each ih =>
    intro rest _
    rw [Value.chars, Value.tokens, List.cons_append, List.append_assoc]
    exact (lexesMark _ rfl).trans ((lexesItems ih (breaksMark (.inr (.inl rfl)) rest)).trans (lexesMark rest rfl))
  | object ascending each ih =>
    intro rest _
    rw [Value.chars, Value.tokens, List.cons_append, List.append_assoc]
    exact (lexesMark _ rfl).trans ((lexesMembers ih (breaksMark (.inr (.inr rfl)) rest)).trans (lexesMark rest rfl))

theorem Plain.tokensOfRender {levels : Nat} {value : Value} (plain : Plain levels value) :
    Token.ofText value.render = value.tokens := by
  obtain ⟨steps, ran, _⟩ := plain.plainPrinted [] nofun value.chars.length (by simp)
  have empty : ∀ steps, lex steps [] = [] := by intro steps; cases steps <;> rfl
  rw [empty, List.append_nil, List.append_nil] at ran
  have size : value.render.length = value.chars.length := by simp [Value.render]
  rw [Token.ofText, size, Value.render, String.toList_ofList]
  exact ran

end Lexing

section Trees

def Grows (value : Value) : Prop :=
  ∀ depth rest, 2 * value.tokens.length ≤ depth → Tree.ofTokens depth (value.tokens ++ rest) = (value.tree, some rest)

theorem tokensHead (value : Value) : ∃ first rest, value.tokens = first :: rest ∧ first ≠ .closeArray := by
  cases value <;> exact ⟨_, _, rfl, nofun⟩

theorem itemsHead (item : Value) (more : List Value) :
    ∃ first rest, itemTokens (item :: more) = first :: rest ∧ first ≠ .closeArray := by
  obtain ⟨first, rest, found, other⟩ := tokensHead item
  cases more with
  | nil => exact ⟨first, rest, found, other⟩
  | cons next more => exact ⟨first, rest ++ .comma :: itemTokens (next :: more), by rw [itemTokensCons, found]; rfl,
    other⟩

theorem itemsGrow {items : List Value} (inhabited : items ≠ []) (each : ∀ item ∈ items, Grows item) (depth : Nat)
    (rest : List Token) (enough : 2 * (itemTokens items).length + 2 ≤ depth) :
    Tree.itemsOfTokens depth (itemTokens items ++ .closeArray :: rest) = (itemTrees items, some rest) := by
  induction items generalizing depth with
  | nil => exact absurd rfl inhabited
  | cons item more ih =>
    cases depth with
    | zero => omega
    | succ depth =>
      have first := each item List.mem_cons_self
      cases more with
      | nil =>
        rw [itemTokens] at enough ⊢
        rw [Tree.itemsOfTokens, first depth _ (by omega)]
        rfl
      | cons other more =>
        rw [itemTokensCons] at enough ⊢
        rw [List.length_append, List.length_cons] at enough
        have later := ih nofun (fun item member => each item (List.mem_cons_of_mem _ member)) depth (by omega)
        rw [List.append_assoc, Tree.itemsOfTokens, first depth _ (by omega)]
        simp only [List.cons_append]
        rw [later]
        rfl

theorem membersGrow {members : List (String × Value)} (inhabited : members ≠ [])
    (each : ∀ entry ∈ members, Grows entry.2) (depth : Nat) (rest : List Token)
    (enough : 2 * (memberTokens members).length + 2 ≤ depth) :
    Tree.membersOfTokens depth (memberTokens members ++ .closeObject :: rest) = (memberTrees members, some rest) := by
  induction members generalizing depth with
  | nil => exact absurd rfl inhabited
  | cons entry more ih =>
    obtain ⟨key, value⟩ := entry
    cases depth with
    | zero => omega
    | succ depth =>
      have first := each (key, value) List.mem_cons_self
      cases more with
      | nil =>
        rw [memberTokens] at enough ⊢
        simp only [List.length_cons] at enough
        rw [List.cons_append, List.cons_append, Tree.membersOfTokens, first depth _ (by dsimp only; omega)]
        rfl
      | cons other more =>
        rw [memberTokensCons] at enough ⊢
        simp only [List.length_cons, List.length_append] at enough
        have later := ih nofun (fun entry member => each entry (List.mem_cons_of_mem _ member)) depth (by omega)
        rw [List.cons_append, List.cons_append, List.append_assoc, Tree.membersOfTokens,
          first depth _ (by dsimp only; omega)]
        simp only [List.cons_append]
        rw [later]
        rfl

theorem leafGrows {value : Value} {token : Token} (single : value.tokens = [token])
    (built : ∀ depth rest, Tree.ofTokens (depth + 1) (token :: rest) = (value.tree, some rest)) : Grows value := by
  intro depth rest enough
  rw [single] at enough ⊢
  cases depth with
  | zero => simp at enough
  | succ depth => exact built depth rest

theorem arrayGrows {items : List Value} (each : ∀ item ∈ items, Grows item) : Grows (.array items) := by
  intro depth rest enough
  rw [Value.tokens] at enough ⊢
  rw [List.length_cons, List.length_append] at enough
  cases depth with
  | zero => omega
  | succ depth =>
    rw [List.cons_append, List.append_assoc]
    cases items with
    | nil => rfl
    | cons item more =>
      have built := itemsGrow (List.cons_ne_nil item more) each depth rest (by simp at enough; omega)
      have opens : ∀ left, itemTokens (item :: more) ++ [.closeArray] ++ rest = .closeArray :: left → False := by
        obtain ⟨first, tokens, found, other⟩ := itemsHead item more
        intro left same
        rw [found] at same
        exact other (List.cons.inj same).1
      rw [← List.append_assoc, Tree.ofTokens.eq_7 depth _ opens, List.append_assoc, List.singleton_append, built]
      rfl

theorem objectGrows {members : List (String × Value)} (each : ∀ entry ∈ members, Grows entry.2) :
    Grows (.object members) := by
  intro depth rest enough
  rw [Value.tokens] at enough ⊢
  rw [List.length_cons, List.length_append] at enough
  cases depth with
  | zero => omega
  | succ depth =>
    rw [List.cons_append, List.append_assoc]
    cases members with
    | nil => rfl
    | cons entry more =>
      have built := membersGrow (List.cons_ne_nil entry more) each depth rest (by simp at enough; omega)
      have opens : ∀ left, memberTokens (entry :: more) ++ [.closeObject] ++ rest = .closeObject :: left → False := by
        intro left same
        cases more <;> cases same
      rw [← List.append_assoc, Tree.ofTokens.eq_9 depth _ opens, List.append_assoc, List.singleton_append, built]
      rfl

theorem Plain.plainGrows {levels : Nat} {value : Value} (plain : Plain levels value) : Grows value := by
  induction plain with
  | null levels => exact leafGrows rfl (fun _ _ => rfl)
  | bool levels value => exact leafGrows rfl (fun _ _ => rfl)
  | number levels number faithful => exact leafGrows rfl (fun _ _ => rfl)
  | string levels text => exact leafGrows rfl (fun _ _ => rfl)
  | @array levels items each ih => exact arrayGrows ih
  | @object levels members ascending each ih => exact objectGrows ih

end Trees

section Values

def Returns (levels : Nat) (value : Value) : Prop := value.tree.value levels = .ok value

theorem itemsReturn {levels : Nat} {items : List Value} (each : ∀ item ∈ items, Returns levels item) :
    itemValues levels (itemTrees items) = .ok items := by
  induction items with
  | nil => rfl
  | cons item more ih =>
    rw [itemTrees, itemValues, each item List.mem_cons_self,
      ih (fun other member => each other (List.mem_cons_of_mem _ member))]
    rfl

theorem membersReturn {levels : Nat} {members : List (String × Value)}
    (each : ∀ entry ∈ members, Returns levels entry.2)
    (found : SortedMap String Value) : memberValues levels (memberTrees members) found =
      .ok (members.foldl (fun map entry => map.insert entry.1 entry.2) found) := by
  induction members generalizing found with
  | nil => rfl
  | cons entry more ih =>
    obtain ⟨key, value⟩ := entry
    rw [memberTrees, memberValues, each (key, value) List.mem_cons_self]
    exact ih (fun other member => each other (List.mem_cons_of_mem _ member)) (found.insert key value)

theorem Plain.plainReturns {levels : Nat} {value : Value} (plain : Plain levels value) : Returns levels value := by
  induction plain with
  | null | bool | number | string => rw [Returns, Value.tree, Tree.value]
  | array each ih =>
    rw [Returns, Value.tree, Tree.value, itemsReturn ih]
    rfl
  | object ascending each ih =>
    have listed := SortedMap.ofListAscending (List.pairwise_map.mpr ascending)
    rw [Returns, Value.tree, Tree.value, membersReturn ih]
    exact congrArg (fun entries => Except.ok (Value.object entries)) listed

end Values

theorem Plain.treeOfRender {levels : Nat} {value : Value} (plain : Plain levels value) :
    Tree.ofText value.render = (value.tree, some []) := by
  have grown := plain.plainGrows (2 * value.tokens.length + 2) [] (by omega)
  rw [List.append_nil] at grown
  rw [Tree.ofText, plain.tokensOfRender]
  exact grown

theorem Plain.readOfRender {levels : Nat} {value : Value} (plain : Plain levels value) {α : Type}
    (read : Source → Reading α) : readText read value.render = read (.text nestingLimit value.tree) := by
  rw [readText, plain.treeOfRender]
  exact bind_pure (read (.text nestingLimit value.tree))

theorem Plain.renderReread {value : Value} (plain : Plain nestingLimit value) :
    readText Source.any value.render = .ok value :=
  (plain.readOfRender Source.any).trans plain.plainReturns

section Building

variable {levels : Nat}

theorem Plain.mono {value : Value} (plain : Plain levels value) {more : Nat} (le : levels ≤ more) :
    Plain more value := by
  induction plain generalizing more with
  | null => exact .null more
  | bool => exact .bool more _
  | number levels number faithful => exact .number more number faithful
  | string => exact .string more _
  | array each ih =>
    obtain ⟨more, rfl⟩ := Nat.exists_eq_add_of_lt le
    exact .array (fun item member => ih item member (by omega))
  | object ascending each ih =>
    obtain ⟨more, rfl⟩ := Nat.exists_eq_add_of_lt le
    exact .object ascending (fun entry member => ih entry member (by omega))

theorem plainNat {n : Nat} (fits : n < 0x10000000000000000) : Plain levels (.ofNat n) := by
  have word : -0x8000000000000000 ≤ (n : Int) ∧ (n : Int) < 0x10000000000000000 := by omega
  rw [Value.ofNat, Number.ofNat, Number.ofInt, dif_pos word]
  exact .number levels _ (integerFaithful n word)

theorem plainRecord {members : List (String × Value)} (each : ∀ entry ∈ members, Plain levels entry.2) :
    Plain (levels + 1) (.record members) :=
  .object (SortedMap.ascending _) (fun entry member => each entry (SortedMap.memOfList member))

theorem plainMap {α : Type} {f : α → Value} {map : SortedMap String α}
    (each : ∀ entry ∈ map.entries, Plain levels (f entry.2)) : Plain (levels + 1) (.ofMap f map) := by
  refine .object (SortedMap.ascending _) (fun entry member => ?_)
  obtain ⟨before, known, rfl⟩ := List.mem_map.mp member
  exact each before known

end Building

end Vdag.Json
