/-
  `Element::indent` (`mxml/element.cc`), and `trim_string` (`tools.cc`).

    * DATA     trees of elements, texts and comments, as `XmlToJson` has them; what `indent` does not
               look at is left out.  A text may be nil, and a comment says whether it begins a line.
    * PROGRAM  `removeWhitespace` goes through the children and the elements below: texts are
               trimmed, and blank ones removed unless nothing else is left.  Then each element
               without texts gets a text before every child, and one after the last.
    * RESULT   indenting twice is indenting once, and nothing but white space changes
               (`indent_twice`): `removeWhitespace` undoes what `indent` inserts.

  The texts must not contain a NUL, which `strchr` finds among the white space and `strncpy` takes
  for the end.  The level must not be so large that twice the number is no `int`.
-/
import MediaTomb.Mxml.XmlToJson
import MediaTomb.Lib.CString

namespace MediaTomb.Mxml

open Lib.CString

/-! ## `trim_string` -/

/-- A character of `WHITE_SPACE`. -/
def isWhite (c : UInt8) : Bool := c == 32 || c == 9 || c == 13 || c == 10

/-- `strchr(WHITE_SPACE, c)`, which finds the NUL behind the four as well. -/
def inWhiteSpace (c : UInt8) : Bool := isWhite c || c == 0

/-- `String::substring`; what is copied is inside the block. -/
def substring (str : Str) (start count : Nat) : Str :=
  if count = 0 then []
  else
    let count := if str.length < start + count then str.length - start else count
    (strncpyBytes count ((terminated str).drop start)).getD []

/-- `trim_string`; `start` is the first character that is not white, and the last is before `stop`. -/
def trimString (str : Str) : Str :=
  let start := str.findIdx (! inWhiteSpace ·)
  if str.length ≤ start then []
  else
    let stop := str.length - str.reverse.findIdx (! inWhiteSpace ·)
    substring str start (stop - start)

/-- `string_ok`: the string is not nil, and its first byte is not the NUL. -/
def stringOk : Option Str → Bool
  | none => false
  | some str => str.headD 0 != 0

/-! ## Trees -/

mutual

inductive Node
  | element (element : Element)
  | text (text : Option Str) (vtype : ValueType)
  | comment (text : Str) (indentWithLFbefore : Bool)

inductive Element
  | mk (name : Str) (attributes : List Attribute) (children : List Node)

end

def Element.children : Element → List Node
  | .mk _ _ children => children

def Element.withChildren : Element → List Node → Element
  | .mk name attributes _, children => .mk name attributes children

def Node.isText : Node → Bool
  | .text .. => true
  | .element _ | .comment .. => false

/-! ## The code -/

mutual

def Element.removeWhitespace : Element → Element
  | .mk name attributes children =>
    .mk name attributes (removeWhitespaceFrom children.length children)

/-- The loop of `removeWhitespace` from a child on.  `removeChild(i--)` takes the child out, and goes
    on with the one that is in its place then. -/
def removeWhitespaceFrom (numChildren : Nat) : List Node → List Node
  | [] => []
  | .text text vtype :: nodes =>
    if stringOk (text.map trimString) then
      .text (text.map trimString) vtype :: removeWhitespaceFrom numChildren nodes
    else if numChildren ≠ 1 then removeWhitespaceFrom (numChildren - 1) nodes
    else .text text vtype :: removeWhitespaceFrom numChildren nodes
  | .element el :: nodes =>
    .element el.removeWhitespace :: removeWhitespaceFrom numChildren nodes
  | .comment text before :: nodes =>
    .comment text before :: removeWhitespaceFrom numChildren nodes

end

/-- `"\\n"` and what is at an offset of `ind_str`, 63 blanks. -/
def lineIndent (ptr : Int) : Option Str :=
  if 0 ≤ ptr ∧ ptr ≤ 63 then some (10 :: List.replicate (63 - ptr.toNat) 32) else none

/-- `ind - (level + 1) * 2`, or the begin of the blanks. -/
def indentPtr (level : Int) : Int :=
  let ptr := 63 - (sumInt level 1 * 2).bmod (2 ^ 32)
  if ptr < 0 then 0 else ptr

def indentText (text : Str) : Node := .text (some text) .string

/-- A text is inserted before each child but the comments that do not begin a line. -/
def insertIndent (indent : Str) : List Node → List Node
  | [] => []
  | .comment text false :: nodes => .comment text false :: insertIndent indent nodes
  | node :: nodes => indentText indent :: node :: insertIndent indent nodes

/-- The elements among the children are indented. -/
def indentElements (indent : Element → Option Element) : List Node → Option (List Node)
  | [] => some []
  | .element el :: nodes => do
    let el ← indent el
    let nodes ← indentElements indent nodes
    some (.element el :: nodes)
  | node :: nodes => do
    let nodes ← indentElements indent nodes
    some (node :: nodes)

/-- The end of `indent`: the texts around the children. -/
def indentChildren (level : Int) (children : List Node) : Option (List Node) :=
  if children.any Node.isText then some children
  else do
    let indent ← lineIndent (indentPtr level)
    let indentAfter ← lineIndent (indentPtr level + 2)
    some (insertIndent indent children ++ [indentText indentAfter])

/-- `Element::indent`; `fuel` bounds the depth. -/
def Element.indent : Nat → Int → Element → Option Element
  | 0, _, _ => none
  | fuel + 1, level, el =>
    if level < 0 then none -- assert(level >= 0)
    else
      let el := el.removeWhitespace
      if el.children = [] then some el
      else do
        let children ← indentElements (indent fuel (sumInt level 1)) el.children
        let children ← indentChildren level children
        some (el.withChildren children)

/-! ## Trimming -/

/-- What is left of a text when the white space at both ends is gone. -/
def trimmed (s : Str) : Str := (s.dropWhile isWhite).rdropWhile isWhite

section

variable {s u m v : Str} {c : UInt8}

/-- The white space around what is left. -/
theorem trimmed_split (s : Str) :
    ∃ u v, s = u ++ (trimmed s ++ v) ∧ (∀ c ∈ u, isWhite c = true) ∧ ∀ c ∈ v, isWhite c = true := by
  refine ⟨s.takeWhile isWhite, (s.dropWhile isWhite).rtakeWhile isWhite, ?_, ?_, ?_⟩
  · unfold trimmed
    rw [List.rdropWhile_append_rtakeWhile, List.takeWhile_append_dropWhile]
  · intro c hc
    exact List.mem_takeWhile_imp hc
  · intro c hc
    exact List.mem_rtakeWhile_imp hc

theorem head?_trimmed (h : (trimmed s).head? = some c) : isWhite c = false := by
  have hprefix : trimmed s <+: s.dropWhile isWhite := List.rdropWhile_prefix _ _
  obtain ⟨t, ht⟩ := hprefix
  cases hm : trimmed s with
  | nil =>
    rw [hm] at h
    cases h
  | cons d m =>
    rw [hm] at h
    obtain rfl : d = c := Option.some.inj h
    rw [hm] at ht
    have hne : s.dropWhile isWhite ≠ [] := by
      rw [← ht]
      exact List.cons_ne_nil _ _
    have hhead := List.head_dropWhile_not isWhite hne
    have hsame : (s.dropWhile isWhite).head hne = d := by
      simp only [← ht, List.cons_append, List.head_cons]
    rw [hsame] at hhead
    exact hhead

theorem getLast?_trimmed (h : (trimmed s).getLast? = some c) : isWhite c = false := by
  have hne : trimmed s ≠ [] := by
    intro hnil
    rw [hnil] at h
    cases h
  have hlast := List.rdropWhile_last_not isWhite (s.dropWhile isWhite) hne
  rw [List.getLast?_eq_some_getLast hne] at h
  rw [← Option.some.inj h]
  exact Bool.eq_false_iff.mpr hlast

theorem trimmed_eq_nil : trimmed s = [] ↔ ∀ c ∈ s, isWhite c = true := by
  constructor
  · intro h c hc
    obtain ⟨u, v, hs, hu, hv⟩ := trimmed_split s
    rw [hs, h, List.nil_append] at hc
    rcases List.mem_append.mp hc with hc | hc
    · exact hu c hc
    · exact hv c hc
  · intro h
    have hnil : s.dropWhile isWhite = [] := List.dropWhile_eq_nil_iff.mpr h
    unfold trimmed
    rw [hnil, List.rdropWhile_nil]

/-- What has no white space at its ends is trimmed. -/
theorem trimmed_trimmed (s : Str) : trimmed (trimmed s) = trimmed s := by
  have hdrop : (trimmed s).dropWhile isWhite = trimmed s := by
    cases hm : trimmed s with
    | nil => rfl
    | cons d m =>
      have hd : isWhite d = false := head?_trimmed (by rw [hm]; rfl)
      rw [List.dropWhile_cons, hd]
      exact if_neg Bool.false_ne_true
  calc trimmed (trimmed s) = ((trimmed s).dropWhile isWhite).rdropWhile isWhite := rfl
    _ = (trimmed s).rdropWhile isWhite := by rw [hdrop]
    _ = trimmed s := List.rdropWhile_idempotent _ _

theorem mem_of_mem_trimmed (h : c ∈ trimmed s) : c ∈ s := by
  obtain ⟨u, v, hs, -, -⟩ := trimmed_split s
  rw [hs]
  exact List.mem_append_right _ (List.mem_append_left _ h)

theorem inWhiteSpace_eq (h : c ≠ 0) : inWhiteSpace c = isWhite c := by
  unfold inWhiteSpace
  rw [beq_false_of_ne h, Bool.or_false]

/-- The first that is not white, behind some that are. -/
theorem findIdx_white (hu : ∀ c ∈ u, inWhiteSpace c = true) (hm : m.head? = some c)
    (hc : inWhiteSpace c = false) : (u ++ m).findIdx (! inWhiteSpace ·) = u.length := by
  cases m with
  | nil => cases hm
  | cons d m =>
    obtain rfl : d = c := Option.some.inj hm
    rw [List.findIdx_append, if_neg, List.findIdx_cons, hc]
    · exact Nat.zero_add _
    · rintro hex
      have hlt := List.findIdx_lt_length.mp hex
      obtain ⟨x, hx, hwhite⟩ := hlt
      rw [hu x hx] at hwhite
      cases hwhite

/-- **`trim_string` trims**, a text without NUL. -/
theorem trimString_eq (h : (0 : UInt8) ∉ s) : trimString s = trimmed s := by
  have hwhite : ∀ c ∈ s, inWhiteSpace c = isWhite c :=
    fun c hc => inWhiteSpace_eq fun h0 => h (h0 ▸ hc)
  obtain ⟨u, v, hs, hu, hv⟩ := trimmed_split s
  have hnul : (0 : UInt8) ∉ trimmed s := fun h0 => h (mem_of_mem_trimmed h0)
  unfold trimString
  simp only
  cases hm : trimmed s with
  | nil =>
    have hall : s.findIdx (! inWhiteSpace ·) = s.length := by
      apply List.findIdx_eq_length_of_false
      intro c hc
      rw [hwhite c hc, trimmed_eq_nil.mp hm c hc]
      rfl
    rw [hall, if_pos (Nat.le_refl _)]
  | cons d m =>
    have hmem : ∀ c, c ∈ trimmed s → inWhiteSpace c = isWhite c :=
      fun c hc => hwhite c (mem_of_mem_trimmed hc)
    have hne : trimmed s ≠ [] := by
      rw [hm]
      exact List.cons_ne_nil _ _
    have hstart : s.findIdx (! inWhiteSpace ·) = u.length := by
      conv_lhs => rw [hs]
      apply findIdx_white (c := d)
      · intro c hc
        rw [hwhite c (by rw [hs]; exact List.mem_append_left _ hc)]
        exact hu c hc
      · rw [hm]
        rfl
      · rw [hmem d (by rw [hm]; exact List.mem_cons_self)]
        exact head?_trimmed (by rw [hm]; rfl)
    have hstop : s.reverse.findIdx (! inWhiteSpace ·) = v.length := by
      have hreverse : s.reverse = v.reverse ++ ((trimmed s).reverse ++ u.reverse) := by
        conv_lhs => rw [hs]
        rw [List.reverse_append, List.reverse_append, List.append_assoc]
      rw [hreverse, ← @List.length_reverse _ v]
      apply findIdx_white (c := (trimmed s).getLast hne)
      · intro c hc
        rw [List.mem_reverse] at hc
        rw [hwhite c (by rw [hs]; exact List.mem_append_right _ (List.mem_append_right _ hc))]
        exact hv c hc
      · rw [List.head?_append_of_ne_nil _ (by rw [ne_eq, List.reverse_eq_nil_iff]; exact hne),
          List.head?_reverse, List.getLast?_eq_some_getLast hne]
      · rw [hmem _ (List.getLast_mem hne)]
        exact getLast?_trimmed (List.getLast?_eq_some_getLast hne)
    have hlength : s.length = u.length + ((trimmed s).length + v.length) := by
      conv_lhs => rw [hs]
      rw [List.length_append, List.length_append]
    have hpos := List.length_pos_iff.mpr hne
    have hcount : s.length - v.length - u.length = (trimmed s).length := by omega
    rw [hstart, hstop, if_neg (by omega), hcount]
    have hblock : terminated s = block (u ++ (trimmed s ++ v)) [] := by
      rw [← hs]
      exact terminated_block
    unfold substring
    simp only
    rw [if_neg (by omega), if_neg (by omega), hblock, strncpyBytes_part hnul, hm]
    rfl

end

/-! ## What stays -/

mutual

/-- No text contains a NUL. -/
def Element.NoNul : Element → Prop
  | .mk _ _ children => NodesNoNul children

def NodesNoNul : List Node → Prop
  | [] => True
  | .text text _ :: nodes => (0 : UInt8) ∉ text.getD [] ∧ NodesNoNul nodes
  | .element el :: nodes => el.NoNul ∧ NodesNoNul nodes
  | .comment .. :: nodes => NodesNoNul nodes

end

mutual

/-- **All but white space**: the elements and comments, the attributes, and what is left of the texts
    when they are trimmed. -/
def Element.content : Element → Element
  | .mk name attributes children => .mk name attributes (contentOf children)

def contentOf : List Node → List Node
  | [] => []
  | .text text vtype :: nodes =>
    if trimmed (text.getD []) = [] then contentOf nodes
    else .text (some (trimmed (text.getD []))) vtype :: contentOf nodes
  | .element el :: nodes => .element el.content :: contentOf nodes
  | .comment text before :: nodes => .comment text before :: contentOf nodes

end

mutual

/-- How deep children are nested. -/
def Element.height : Element → Nat
  | .mk _ _ children => heightOf children

def heightOf : List Node → Nat
  | [] => 0
  | .element el :: nodes => max (el.height + 1) (heightOf nodes)
  | .text .. :: nodes | .comment .. :: nodes => max 1 (heightOf nodes)

end

/-! ## `removeWhitespace` without its loop -/

/-- The children without blank texts, and clean themselves. -/
def cleaned : List Node → List Node
  | [] => []
  | .text text vtype :: nodes =>
    if stringOk (text.map trimString) then .text (text.map trimString) vtype :: cleaned nodes
    else cleaned nodes
  | .element el :: nodes => .element el.removeWhitespace :: cleaned nodes
  | .comment text before :: nodes => .comment text before :: cleaned nodes

section

variable {el : Element} {nodes ms : List Node} {text : Option Str} {vtype : ValueType}

theorem cleaned_append : cleaned (nodes ++ ms) = cleaned nodes ++ cleaned ms := by
  induction nodes with
  | nil => rfl
  | cons node nodes ih =>
    cases node with
    | text text vtype =>
      rw [List.cons_append, cleaned, cleaned, ih]
      split
      · rfl
      · rfl
    | element el => rw [List.cons_append, cleaned, cleaned, ih, List.cons_append]
    | comment text before => rw [List.cons_append, cleaned, cleaned, ih, List.cons_append]

/-- As long as something else is kept, the loop removes every blank text. -/
theorem removeWhitespaceFrom_cleaned : ∀ {nodes : List Node} {n kept : Nat},
    n = kept + nodes.length → (0 < kept ∨ cleaned nodes ≠ []) →
      removeWhitespaceFrom n nodes = cleaned nodes := by
  intro nodes
  induction nodes with
  | nil =>
    intro n kept hn hkept
    rfl
  | cons node nodes ih =>
    intro n kept hn hkept
    rw [List.length_cons] at hn
    have hnext : n = (kept + 1) + nodes.length := by omega
    cases node with
    | element el => rw [removeWhitespaceFrom, cleaned, ih hnext (Or.inl (Nat.succ_pos _))]
    | comment text before =>
      rw [removeWhitespaceFrom, cleaned, ih hnext (Or.inl (Nat.succ_pos _))]
    | text text vtype =>
      rw [removeWhitespaceFrom, cleaned]
      split
      · rw [ih hnext (Or.inl (Nat.succ_pos _))]
      · next hblank =>
        rw [cleaned, if_neg hblank] at hkept
        -- this one is not the last child that is left
        have hmore : n ≠ 1 := by
          rcases hkept with hkept | hkept
          · omega
          · cases nodes with
            | nil => exact absurd rfl hkept
            | cons node nodes =>
              rw [List.length_cons] at hn
              omega
        rw [if_pos hmore]
        exact ih (by omega) hkept

/-- Of nothing but blank texts the last is kept. -/
theorem removeWhitespaceFrom_blank (h : cleaned nodes = []) :
    removeWhitespaceFrom nodes.length nodes = nodes.getLast?.toList := by
  induction nodes with
  | nil => rfl
  | cons node nodes ih =>
    cases node with
    | element el => cases h
    | comment text before => cases h
    | text text vtype =>
      rw [cleaned] at h
      split at h
      · cases h
      · next hblank =>
        rw [removeWhitespaceFrom, if_neg hblank]
        cases nodes with
        | nil => rfl
        | cons node nodes =>
          rw [if_pos (by simp only [List.length_cons]; omega), List.getLast?_cons_cons]
          exact ih h

/-- **What `removeWhitespace` does to the children.** -/
theorem children_removeWhitespace (el : Element) :
    el.removeWhitespace.children =
      if cleaned el.children = [] then el.children.getLast?.toList else cleaned el.children := by
  obtain ⟨name, attributes, children⟩ := el
  show removeWhitespaceFrom children.length children = _
  split
  · next h => exact removeWhitespaceFrom_blank h
  · next h => exact removeWhitespaceFrom_cleaned (Nat.zero_add _).symm (Or.inr h)

/-- Only the children matter. -/
theorem removeWhitespace_withChildren (el : Element) (nodes : List Node) :
    (el.withChildren nodes).removeWhitespace =
      el.withChildren (if cleaned nodes = [] then nodes.getLast?.toList else cleaned nodes) := by
  obtain ⟨name, attributes, children⟩ := el
  have h := children_removeWhitespace (.mk name attributes nodes)
  show Element.mk name attributes (removeWhitespaceFrom nodes.length nodes) = _
  exact congrArg (Element.mk name attributes) h

theorem withChildren_children (el : Element) : el.withChildren el.children = el := by
  obtain ⟨name, attributes, children⟩ := el
  rfl

end

/-! ## `removeWhitespace` twice -/

section

variable {el : Element} {nodes ms : List Node} {text : Option Str} {vtype : ValueType}

theorem stringOk_trimmed (h : (0 : UInt8) ∉ text.getD []) :
    stringOk (text.map trimString) = !decide (trimmed (text.getD []) = []) := by
  cases text with
  | none => rfl
  | some s =>
    have hs : trimString s = trimmed s := trimString_eq h
    rw [Option.map_some, hs, Option.getD_some]
    cases hm : trimmed s with
    | nil => rfl
    | cons d m =>
      have hd : d ≠ 0 := by
        rintro rfl
        apply h
        apply mem_of_mem_trimmed
        rw [Option.getD_some, hm]
        exact List.mem_cons_self
      show (d != 0) = _
      rw [bne_iff_ne.mpr hd]
      rfl

/-- A blank text is removed, and any other trimmed. -/
theorem cleaned_text (h : (0 : UInt8) ∉ text.getD []) :
    cleaned (.text text vtype :: nodes) =
      if trimmed (text.getD []) = [] then cleaned nodes
      else .text (some (trimmed (text.getD []))) vtype :: cleaned nodes := by
  rw [cleaned, stringOk_trimmed h]
  by_cases hblank : trimmed (text.getD []) = []
  · rw [if_pos hblank, decide_eq_true hblank]
    rfl
  · rw [if_neg hblank, decide_eq_false hblank, if_pos Bool.not_false]
    cases text with
    | none => exact absurd rfl hblank
    | some s =>
      have hs : trimString s = trimmed s := trimString_eq h
      rw [Option.map_some, hs, Option.getD_some]

/-- A property of nodes that passes to the nodes that `removeWhitespace` leaves. -/
theorem cleaned_nil_or_last (nodes : List Node) :
    nodes.getLast?.toList = [] ∨ ∃ node init, nodes = init ++ [node] ∧
      nodes.getLast?.toList = [node] := by
  rcases List.eq_nil_or_concat' nodes with rfl | ⟨init, node, rfl⟩
  · exact Or.inl rfl
  · refine Or.inr ⟨node, init, rfl, ?_⟩
    rw [List.getLast?_concat]
    rfl

/-- What is left of blank texts stays. -/
theorem cleaned_last (h : cleaned nodes = []) : cleaned nodes.getLast?.toList = [] := by
  rcases cleaned_nil_or_last nodes with hnil | ⟨node, init, hnodes, hlast⟩
  · rw [hnil]
    rfl
  · rw [hnodes, cleaned_append] at h
    rw [hlast]
    exact (List.append_eq_nil_iff.mp h).2

end

mutual

theorem Element.removeWhitespace_twice : ∀ (el : Element), el.NoNul →
    el.removeWhitespace.removeWhitespace = el.removeWhitespace
  | .mk name attributes children => by
    intro hnul
    have hcleaned := cleaned_cleaned children hnul
    have hchildren := children_removeWhitespace (.mk name attributes children)
    have hsame : (Element.mk name attributes children).removeWhitespace =
        .mk name attributes (if cleaned children = [] then children.getLast?.toList
          else cleaned children) := congrArg (Element.mk name attributes) hchildren
    rw [hsame]
    refine congrArg (Element.mk name attributes) ?_
    refine (children_removeWhitespace (.mk name attributes _)).trans ?_
    show (if cleaned (if cleaned children = [] then children.getLast?.toList
        else cleaned children) = [] then _ else _) = _
    by_cases hblank : cleaned children = []
    · rw [if_pos hblank, if_pos (cleaned_last hblank)]
      show children.getLast?.toList.getLast?.toList = _
      rcases cleaned_nil_or_last children with hnil | ⟨node, init, hnodes, hlast⟩
      · rw [hnil]
        rfl
      · rw [hlast]
        rfl
    · rw [if_neg hblank, hcleaned, if_neg hblank]
      exact hcleaned

theorem cleaned_cleaned : ∀ (nodes : List Node), NodesNoNul nodes →
    cleaned (cleaned nodes) = cleaned nodes
  | [] => fun _ => rfl
  | .text text vtype :: nodes => by
    rintro ⟨hnul, hnodes⟩
    have ih := cleaned_cleaned nodes hnodes
    rw [cleaned_text hnul]
    by_cases hblank : trimmed (text.getD []) = []
    · rw [if_pos hblank]
      exact ih
    · have hnul' : (0 : UInt8) ∉ trimmed (text.getD []) := fun h => hnul (mem_of_mem_trimmed h)
      rw [if_neg hblank, @cleaned_text (cleaned nodes) (some (trimmed (text.getD []))) vtype hnul',
        Option.getD_some, trimmed_trimmed, if_neg hblank, ih]
  | .element el :: nodes => by
    rintro ⟨hel, hnodes⟩
    rw [cleaned, cleaned, cleaned_cleaned nodes hnodes, el.removeWhitespace_twice hel]
  | .comment text before :: nodes => by
    intro hnodes
    rw [cleaned, cleaned, cleaned_cleaned nodes hnodes]

end

/-! ## Only white space is removed -/

section

variable {nodes ms : List Node}

theorem nodesNoNul_append : NodesNoNul (nodes ++ ms) ↔ NodesNoNul nodes ∧ NodesNoNul ms := by
  induction nodes with
  | nil => exact ⟨fun h => ⟨trivial, h⟩, And.right⟩
  | cons node nodes ih =>
    rw [List.cons_append]
    cases node with
    | text text vtype => rw [NodesNoNul, NodesNoNul, ih, and_assoc]
    | element el => rw [NodesNoNul, NodesNoNul, ih, and_assoc]
    | comment text before => rw [NodesNoNul, NodesNoNul, ih]

theorem contentOf_append : contentOf (nodes ++ ms) = contentOf nodes ++ contentOf ms := by
  induction nodes with
  | nil => rfl
  | cons node nodes ih =>
    rw [List.cons_append]
    cases node with
    | text text vtype =>
      rw [contentOf, contentOf, ih]
      split
      · rfl
      · rfl
    | element el => rw [contentOf, contentOf, ih, List.cons_append]
    | comment text before => rw [contentOf, contentOf, ih, List.cons_append]

theorem heightOf_append : heightOf (nodes ++ ms) = max (heightOf nodes) (heightOf ms) := by
  induction nodes with
  | nil => exact (Nat.zero_max _).symm
  | cons node nodes ih =>
    rw [List.cons_append]
    cases node with
    | text text vtype => rw [heightOf, heightOf, ih, Nat.max_assoc]
    | element el => rw [heightOf, heightOf, ih, Nat.max_assoc]
    | comment text before => rw [heightOf, heightOf, ih, Nat.max_assoc]

end

mutual

theorem Element.removeWhitespace_keeps : ∀ (el : Element), el.NoNul →
    el.removeWhitespace.NoNul ∧ el.removeWhitespace.content = el.content ∧
      el.removeWhitespace.height ≤ el.height
  | .mk name attributes children => by
    intro hnul
    obtain ⟨hkept, hcontent, hheight⟩ := cleaned_keeps children hnul
    have hchildren := children_removeWhitespace (.mk name attributes children)
    have hsame : (Element.mk name attributes children).removeWhitespace =
        .mk name attributes (if cleaned children = [] then children.getLast?.toList
          else cleaned children) := congrArg (Element.mk name attributes) hchildren
    rw [hsame]
    by_cases hblank : cleaned children = []
    · rw [if_pos hblank]
      have hnone : contentOf children = [] := by
        rw [← hcontent, hblank]
        rfl
      rcases cleaned_nil_or_last children with hnil | ⟨node, init, hnodes, hlast⟩
      · rw [hnil]
        refine ⟨trivial, ?_, Nat.zero_le _⟩
        show Element.mk name attributes [] = Element.mk name attributes (contentOf children)
        rw [hnone]
      · rw [hlast]
        rw [hnodes] at hnul hnone
        have hnul' : NodesNoNul init ∧ NodesNoNul [node] := nodesNoNul_append.mp hnul
        rw [contentOf_append] at hnone
        have hnode : contentOf [node] = [] := (List.append_eq_nil_iff.mp hnone).2
        refine ⟨hnul'.2, ?_, ?_⟩
        · show Element.mk name attributes (contentOf [node]) =
            Element.mk name attributes (contentOf children)
          rw [hnodes, contentOf_append, hnode, (List.append_eq_nil_iff.mp hnone).1]
          rfl
        · show heightOf [node] ≤ heightOf children
          rw [hnodes, heightOf_append]
          exact Nat.le_max_right _ _
    · rw [if_neg hblank]
      exact ⟨hkept, congrArg (Element.mk name attributes) hcontent, hheight⟩

theorem cleaned_keeps : ∀ (nodes : List Node), NodesNoNul nodes →
    NodesNoNul (cleaned nodes) ∧ contentOf (cleaned nodes) = contentOf nodes ∧
      heightOf (cleaned nodes) ≤ heightOf nodes
  | [] => fun _ => ⟨trivial, rfl, Nat.le_refl _⟩
  | .text text vtype :: nodes => by
    rintro ⟨hnul, hnodes⟩
    obtain ⟨hkept, hcontent, hheight⟩ := cleaned_keeps nodes hnodes
    rw [cleaned_text hnul, contentOf, heightOf]
    by_cases hblank : trimmed (text.getD []) = []
    · rw [if_pos hblank, if_pos hblank]
      exact ⟨hkept, hcontent, Nat.le_trans hheight (Nat.le_max_right _ _)⟩
    · rw [if_neg hblank, if_neg hblank, contentOf, Option.getD_some, trimmed_trimmed,
        if_neg hblank, hcontent, heightOf]
      exact ⟨⟨fun h => hnul (mem_of_mem_trimmed h), hkept⟩, rfl, max_le_max_left 1 hheight⟩
  | .element el :: nodes => by
    rintro ⟨hel, hnodes⟩
    obtain ⟨hkept, hcontent, hheight⟩ := cleaned_keeps nodes hnodes
    obtain ⟨helKept, helContent, helHeight⟩ := el.removeWhitespace_keeps hel
    rw [cleaned, contentOf, contentOf, hcontent, helContent, heightOf, heightOf]
    exact ⟨⟨helKept, hkept⟩, rfl, max_le_max (Nat.succ_le_succ helHeight) hheight⟩
  | .comment text before :: nodes => by
    intro hnodes
    obtain ⟨hkept, hcontent, hheight⟩ := cleaned_keeps nodes hnodes
    rw [cleaned, contentOf, contentOf, hcontent, heightOf, heightOf]
    exact ⟨hkept, rfl, max_le_max_left 1 hheight⟩

end

/-! ## The texts that are inserted -/

section

variable {level : Int} {nodes ms : List Node} {text : Str}

/-- A text that begins a line, and is blank. -/
def IndentText (text : Str) : Prop := ∃ n, text = 10 :: List.replicate n 32

theorem lineIndent_some {ptr : Int} (h : lineIndent ptr = some text) : IndentText text := by
  unfold lineIndent at h
  split at h
  · cases h
    exact ⟨_, rfl⟩
  · cases h

theorem lineIndent_inside {ptr : Int} (h : 0 ≤ ptr ∧ ptr ≤ 63) : ∃ text, lineIndent ptr = some text :=
  ⟨_, if_pos h⟩

/-- As long as twice the number is an `int`, the pointer is among the blanks. -/
theorem indentPtr_inside (hlevel : 0 ≤ level) (hint : level + 1 < 2 ^ 30) :
    0 ≤ indentPtr level ∧ indentPtr level + 2 ≤ 63 := by
  have hone : sumInt level 1 = level + 1 := sumInt_small (by omega) (by omega)
  have hdouble : ((level + 1) * 2).bmod (2 ^ 32) = (level + 1) * 2 := by
    rw [Int.bmod_def]
    split <;> omega
  unfold indentPtr
  simp only
  rw [hone, hdouble]
  split <;> omega

theorem IndentText.blank (h : IndentText text) : trimmed text = [] := by
  obtain ⟨n, rfl⟩ := h
  rw [trimmed_eq_nil]
  intro c hc
  rcases List.mem_cons.mp hc with rfl | hc
  · rfl
  · rw [List.eq_of_mem_replicate hc]
    rfl

theorem IndentText.noNul (h : IndentText text) : (0 : UInt8) ∉ text := by
  obtain ⟨n, rfl⟩ := h
  intro hc
  rcases List.mem_cons.mp hc with hc | hc
  · exact absurd hc (by decide)
  · exact absurd (List.eq_of_mem_replicate hc) (by decide)

/-- `removeWhitespace` takes such a text out. -/
theorem IndentText.cleaned (h : IndentText text) :
    cleaned (indentText text :: nodes) = cleaned nodes := by
  have htext := @cleaned_text nodes (some text) .string h.noNul
  rw [Option.getD_some, if_pos h.blank] at htext
  exact htext

/-- Before a child there is a text, or not. -/
theorem insertIndent_cons (text : Str) (node : Node) (nodes : List Node) :
    insertIndent text (node :: nodes) = [node] ++ insertIndent text nodes ∨
      insertIndent text (node :: nodes) =
        indentText text :: ([node] ++ insertIndent text nodes) := by
  cases node with
  | text text' vtype => exact Or.inr (by rw [insertIndent]; rfl; intro _ h; cases h)
  | element el => exact Or.inr (by rw [insertIndent]; rfl; intro _ h; cases h)
  | comment text' before =>
    cases before with
    | false => exact Or.inl rfl
    | true => exact Or.inr (by rw [insertIndent]; rfl; intro _ h; cases h)

/-- **What is inserted is taken out again.** -/
theorem cleaned_insertIndent (h : IndentText text) :
    cleaned (insertIndent text nodes) = cleaned nodes := by
  induction nodes with
  | nil => rfl
  | cons node nodes ih =>
    have hnode : Mxml.cleaned ([node] ++ insertIndent text nodes) =
        Mxml.cleaned (node :: nodes) := by
      rw [cleaned_append, ih, ← cleaned_append]
      rfl
    rcases insertIndent_cons text node nodes with hinsert | hinsert
    · rw [hinsert, hnode]
    · rw [hinsert, h.cleaned, hnode]

theorem noNul_insertIndent (h : IndentText text) (hnodes : NodesNoNul nodes) :
    NodesNoNul (insertIndent text nodes) := by
  induction nodes with
  | nil => trivial
  | cons node nodes ih =>
    have hparts : NodesNoNul ([node] ++ nodes) := hnodes
    obtain ⟨hnode, hrest⟩ := nodesNoNul_append.mp hparts
    have hnext := nodesNoNul_append.mpr ⟨hnode, ih hrest⟩
    rcases insertIndent_cons text node nodes with hinsert | hinsert
    · rw [hinsert]
      exact hnext
    · rw [hinsert]
      exact ⟨h.noNul, hnext⟩

/-- The end of `indent`. -/
theorem indentChildren_keeps (h : indentChildren level nodes = some ms) (hnodes : NodesNoNul nodes) :
    NodesNoNul ms ∧ cleaned ms = cleaned nodes ∧ (nodes.any Node.isText = true → ms = nodes) := by
  unfold indentChildren at h
  split at h
  · cases h
    exact ⟨hnodes, rfl, fun _ => rfl⟩
  · next hany =>
    obtain ⟨indent, hindent, h⟩ := Option.bind_eq_some_iff.mp h
    obtain ⟨indentAfter, hafter, h⟩ := Option.bind_eq_some_iff.mp h
    cases h
    have hblank := lineIndent_some hindent
    have hblankAfter := lineIndent_some hafter
    refine ⟨?_, ?_, fun htext => absurd htext hany⟩
    · exact nodesNoNul_append.mpr ⟨noNul_insertIndent hblank hnodes, hblankAfter.noNul, trivial⟩
    · rw [cleaned_append, cleaned_insertIndent hblank, hblankAfter.cleaned]
      exact List.append_nil _

theorem indentChildren_returns (hlevel : 0 ≤ level) (hint : level + 1 < 2 ^ 30) :
    ∃ ms, indentChildren level nodes = some ms := by
  obtain ⟨hlow, hhigh⟩ := indentPtr_inside hlevel hint
  obtain ⟨indent, hindent⟩ := @lineIndent_inside (indentPtr level) ⟨hlow, by omega⟩
  obtain ⟨indentAfter, hafter⟩ := @lineIndent_inside (indentPtr level + 2) ⟨by omega, hhigh⟩
  unfold indentChildren
  split
  · exact ⟨_, rfl⟩
  · rw [hindent, hafter]
    exact ⟨_, rfl⟩

end

/-! ## `indent` -/

section

variable {level : Int} {el el' : Element} {nodes ms : List Node}

/-- The elements below are indented, and `removeWhitespace` sees no difference. -/
theorem indentElements_keeps {indent : Element → Option Element}
    (hindent : ∀ el el', el.NoNul → indent el = some el' →
      el'.NoNul ∧ el'.removeWhitespace = el.removeWhitespace) :
    ∀ {nodes ms : List Node}, NodesNoNul nodes → indentElements indent nodes = some ms →
      NodesNoNul ms ∧ cleaned ms = cleaned nodes := by
  intro nodes
  induction nodes with
  | nil =>
    intro ms hnul h
    cases h
    exact ⟨trivial, rfl⟩
  | cons node nodes ih =>
    intro ms hnul h
    cases node with
    | element el =>
      obtain ⟨el', hel, h⟩ := Option.bind_eq_some_iff.mp h
      obtain ⟨ms', hms, h⟩ := Option.bind_eq_some_iff.mp h
      cases h
      obtain ⟨hkept, hcleaned⟩ := ih hnul.2 hms
      obtain ⟨helNul, helSame⟩ := hindent el el' hnul.1 hel
      refine ⟨⟨helNul, hkept⟩, ?_⟩
      rw [cleaned, cleaned, hcleaned, helSame]
    | text text vtype =>
      obtain ⟨ms', hms, h⟩ := Option.bind_eq_some_iff.mp h
      cases h
      obtain ⟨hkept, hcleaned⟩ := ih hnul.2 hms
      refine ⟨⟨hnul.1, hkept⟩, ?_⟩
      rw [cleaned, cleaned, hcleaned]
    | comment text before =>
      obtain ⟨ms', hms, h⟩ := Option.bind_eq_some_iff.mp h
      cases h
      obtain ⟨hkept, hcleaned⟩ := ih hnul hms
      refine ⟨hkept, ?_⟩
      rw [cleaned, cleaned, hcleaned]

/-- The children that `removeWhitespace` leaves are those it would leave of them. -/
theorem clean_children (hnul : el.NoNul) :
    el.removeWhitespace.children =
      if cleaned el.removeWhitespace.children = [] then
        el.removeWhitespace.children.getLast?.toList
      else cleaned el.removeWhitespace.children := by
  conv_lhs => rw [← el.removeWhitespace_twice hnul]
  exact children_removeWhitespace _

/-- **`removeWhitespace` undoes `indent`.** -/
theorem Element.indent_keeps : ∀ (fuel : Nat) (level : Int) (el el' : Element), el.NoNul →
    el.indent fuel level = some el' →
      el'.NoNul ∧ el'.removeWhitespace = el.removeWhitespace := by
  intro fuel
  induction fuel with
  | zero =>
    intro level el el' hnul h
    cases h
  | succ fuel ih =>
    intro level el el' hnul h
    obtain ⟨hnul', -, -⟩ := el.removeWhitespace_keeps hnul
    have htwice := el.removeWhitespace_twice hnul
    have hclean := clean_children hnul
    rw [Element.indent] at h
    split at h
    · cases h
    simp only at h
    generalize el.removeWhitespace = el₁ at *
    split at h
    · cases h
      exact ⟨hnul', htwice⟩
    · next hsome =>
      obtain ⟨nodes, hnodes, h⟩ := Option.bind_eq_some_iff.mp h
      obtain ⟨ms, hms, h⟩ := Option.bind_eq_some_iff.mp h
      cases h
      have hchildren : NodesNoNul el₁.children := by
        cases el₁ with
        | mk name attributes children => exact hnul'
      obtain ⟨hnodesNul, hnodesCleaned⟩ :=
        indentElements_keeps (fun c c' => ih _ c c') hchildren hnodes
      obtain ⟨hmsNul, hmsCleaned, hmsSame⟩ := indentChildren_keeps hms hnodesNul
      have hwith : (el₁.withChildren ms).NoNul := by
        cases el₁ with
        | mk name attributes children => exact hmsNul
      refine ⟨hwith, ?_⟩
      rw [removeWhitespace_withChildren, hmsCleaned, hnodesCleaned]
      by_cases hblank : cleaned el₁.children = []
      · -- a blank text is the only child, and nothing is done
        rw [if_pos hblank] at hclean ⊢
        obtain ⟨text, vtype, honly⟩ : ∃ text vtype, el₁.children = [.text text vtype] := by
          rcases cleaned_nil_or_last el₁.children with hnil | ⟨node, init, -, hlast⟩
          · exact absurd (hclean.trans hnil) hsome
          · rw [hlast] at hclean
            rw [hclean] at hblank
            cases node with
            | text text vtype => exact ⟨text, vtype, hclean⟩
            | element el => cases hblank
            | comment text before => cases hblank
        have hsame : nodes = el₁.children := by
          rw [honly] at hnodes ⊢
          exact (Option.some.inj hnodes).symm
        have htext : nodes.any Node.isText = true := by
          rw [hsame, honly]
          rfl
        rw [hmsSame htext, hsame, ← hclean]
        exact withChildren_children el₁
      · rw [if_neg hblank] at hclean ⊢
        rw [← hclean]
        exact withChildren_children el₁

theorem indentElements_returns {indent : Element → Option Element} :
    ∀ {nodes : List Node} (height : Nat), NodesNoNul nodes → heightOf nodes ≤ height →
      (∀ el : Element, el.NoNul → el.height + 1 ≤ height → ∃ el', indent el = some el') →
      ∃ ms, indentElements indent nodes = some ms := by
  intro nodes height
  induction nodes with
  | nil =>
    intro hnul hheight hindent
    exact ⟨[], rfl⟩
  | cons node nodes ih =>
    intro hnul hheight hindent
    cases node with
    | element el =>
      rw [heightOf] at hheight
      obtain ⟨el', hel⟩ := hindent el hnul.1 (by omega)
      obtain ⟨ms, hms⟩ := ih hnul.2 (by omega) hindent
      refine ⟨.element el' :: ms, ?_⟩
      rw [indentElements, hel, hms]
      rfl
    | text text vtype =>
      rw [heightOf] at hheight
      obtain ⟨ms, hms⟩ := ih hnul.2 (by omega) hindent
      refine ⟨.text text vtype :: ms, ?_⟩
      rw [indentElements, hms]
      · rfl
      · intro _ h
        cases h
    | comment text before =>
      rw [heightOf] at hheight
      obtain ⟨ms, hms⟩ := ih hnul (by omega) hindent
      refine ⟨.comment text before :: ms, ?_⟩
      rw [indentElements, hms]
      · rfl
      · intro _ h
        cases h

/-- **`indent` returns**, as long as twice the number of the deepest level is an `int`. -/
theorem Element.indent_returns : ∀ (fuel : Nat) (level : Int) (el : Element), el.NoNul →
    0 ≤ level → level + el.height < 2 ^ 30 → el.height < fuel →
      ∃ el', el.indent fuel level = some el' := by
  intro fuel
  induction fuel with
  | zero =>
    intro level el hnul hlevel hint hfuel
    exact absurd hfuel (Nat.not_lt_zero _)
  | succ fuel ih =>
    intro level el hnul hlevel hint hfuel
    obtain ⟨hnul', -, hheight⟩ := el.removeWhitespace_keeps hnul
    rw [Element.indent, if_neg (by omega)]
    simp only
    generalize el.removeWhitespace = el₁ at *
    split
    · exact ⟨_, rfl⟩
    · next hsome =>
      have hchildren : NodesNoNul el₁.children ∧ heightOf el₁.children = el₁.height := by
        cases el₁ with
        | mk name attributes children => exact ⟨hnul', rfl⟩
      have hdeep : 1 ≤ heightOf el₁.children := by
        cases hc : el₁.children with
        | nil => exact absurd hc hsome
        | cons node nodes =>
          cases node with
          | element el =>
            rw [heightOf]
            omega
          | text text vtype =>
            rw [heightOf]
            omega
          | comment text before =>
            rw [heightOf]
            omega
      have hone : sumInt level 1 = level + 1 := sumInt_small (by omega) (by omega)
      obtain ⟨nodes, hnodes⟩ := @indentElements_returns (indent fuel (sumInt level 1))
        el₁.children el.height hchildren.1 (by omega) (by
          intro c hc hless
          rw [hone]
          exact ih (level + 1) c hc (by omega) (by omega) (by omega))
      obtain ⟨ms, hms⟩ := @indentChildren_returns level nodes hlevel (by omega)
      rw [hnodes]
      show ∃ el', (indentChildren level nodes).bind _ = some el'
      rw [hms]
      exact ⟨_, rfl⟩

theorem indentElements_mono {f g : Element → Option Element}
    (h : ∀ el el', f el = some el' → g el = some el') :
    ∀ {nodes ms : List Node}, indentElements f nodes = some ms →
      indentElements g nodes = some ms := by
  intro nodes
  induction nodes with
  | nil =>
    intro ms hms
    exact hms
  | cons node nodes ih =>
    intro ms hms
    cases node with
    | element el =>
      obtain ⟨el', hel, hms⟩ := Option.bind_eq_some_iff.mp hms
      obtain ⟨ms', hms', hresult⟩ := Option.bind_eq_some_iff.mp hms
      rw [indentElements, h el el' hel, ih hms']
      exact hresult
    | text text vtype =>
      obtain ⟨ms', hms', hresult⟩ := Option.bind_eq_some_iff.mp hms
      rw [indentElements, ih hms']
      · exact hresult
      · intro _ h
        cases h
    | comment text before =>
      obtain ⟨ms', hms', hresult⟩ := Option.bind_eq_some_iff.mp hms
      rw [indentElements, ih hms']
      · exact hresult
      · intro _ h
        cases h

/-- Fuel that is not used changes nothing. -/
theorem Element.indent_mono : ∀ (fuel : Nat) (level : Int) (el el' : Element),
    el.indent fuel level = some el' → el.indent (fuel + 1) level = some el' := by
  intro fuel
  induction fuel with
  | zero =>
    intro level el el' h
    cases h
  | succ fuel ih =>
    intro level el el' h
    rw [Element.indent] at h ⊢
    split at h
    · cases h
    next hlevel =>
    rw [if_neg hlevel]
    simp only at h ⊢
    split at h
    · next hnone =>
      rw [if_pos hnone]
      exact h
    · next hsome =>
      rw [if_neg hsome]
      obtain ⟨nodes, hnodes, hrest⟩ := Option.bind_eq_some_iff.mp h
      rw [indentElements_mono (fun c c' => ih _ c c') hnodes]
      exact hrest

/-- `indent` looks at nothing that `removeWhitespace` removes. -/
theorem Element.indent_congr (h : el'.removeWhitespace = el.removeWhitespace) (fuel : Nat) :
    el'.indent fuel level = el.indent fuel level := by
  cases fuel with
  | zero => rfl
  | succ fuel => rw [Element.indent, Element.indent, h]

end

/-- **Indenting twice is indenting once, and nothing but white space changes**, if no text contains
    a NUL and the levels below are `int`s even when they are doubled. -/
theorem indent_twice (el : Element) (level : Int) (hnul : el.NoNul) (hlevel : 0 ≤ level)
    (hint : level + el.height < 2 ^ 30) :
    ∃ el' : Element, (∀ fuel, el.height < fuel →
        el.indent fuel level = some el' ∧ el'.indent fuel level = some el') ∧
      el'.content = el.content := by
  obtain ⟨el', hindent⟩ := Element.indent_returns (el.height + 1) level el hnul hlevel hint
    (Nat.lt_succ_self _)
  obtain ⟨hnul', hsame⟩ := Element.indent_keeps _ level el el' hnul hindent
  refine ⟨el', ?_, ?_⟩
  · have hmore : ∀ fuel, el.height < fuel → el.indent fuel level = some el' := by
      intro fuel hfuel
      induction fuel, hfuel using Nat.le_induction with
      | base => exact hindent
      | succ fuel hfuel ih => exact Element.indent_mono fuel level el el' ih
    intro fuel hfuel
    rw [Element.indent_congr hsame]
    exact ⟨hmore fuel hfuel, hmore fuel hfuel⟩
  · calc el'.content = el'.removeWhitespace.content := (el'.removeWhitespace_keeps hnul').2.1.symm
      _ = el.removeWhitespace.content := by rw [hsame]
      _ = el.content := (el.removeWhitespace_keeps hnul).2.1

/-- `<a><b/></a>`, where two lines are begun. -/
theorem indent_twice_nested :
    ∃ el' : Element, (∀ fuel, 1 < fuel →
        (Element.mk [97] [] [.element (.mk [98] [] [])]).indent fuel 0 = some el' ∧
          el'.indent fuel 0 = some el') ∧
      el'.content = Element.mk [97] [] [.element (.mk [98] [] [])] :=
  indent_twice (.mk [97] [] [.element (.mk [98] [] [])]) 0 ⟨trivial, trivial⟩ (Int.le_refl 0)
    (by decide)

/-- `a`, a NUL and `b` as a text: `b` is lost, and then the NULs.  And a level of which twice the
    number is no `int`. -/
theorem indent_breaks :
    (Element.mk [] [] [.text (some [97, 0, 98]) .string]).indent 1 0 =
        some (.mk [] [] [.text (some [97, 0, 0]) .string]) ∧
      (Element.mk [] [] [.text (some [97, 0, 0]) .string]).indent 1 0 =
        some (.mk [] [] [.text (some [97]) .string]) ∧
      ∀ fuel, (Element.mk [97] [] [.element (.mk [98] [] [])]).indent fuel (2 ^ 30 - 1) = none := by
  refine ⟨rfl, rfl, ?_⟩
  have hline : lineIndent (indentPtr (2 ^ 30 - 1)) = none := by decide +kernel
  have hchildren : ∀ el : Element, indentChildren (2 ^ 30 - 1) [.element el] = none := by
    intro el
    have hany : ¬ [Node.element el].any Node.isText = true := Bool.false_ne_true
    unfold indentChildren
    rw [if_neg hany, hline]
    rfl
  have hclean : (Element.mk [97] [] [.element (.mk [98] [] [])]).removeWhitespace =
      .mk [97] [] [.element (.mk [98] [] [])] := rfl
  intro fuel
  cases fuel with
  | zero => rfl
  | succ fuel =>
    rw [Element.indent, if_neg (by decide), hclean]
    have hsome : (Element.mk [97] [] [.element (.mk [98] [] [])]).children ≠ [] :=
      List.cons_ne_nil _ _
    simp only
    rw [if_neg hsome]
    show (indentElements _ [.element (.mk [98] [] [])]).bind _ = none
    rw [indentElements]
    cases Element.indent fuel (sumInt (2 ^ 30 - 1) 1) (.mk [98] [] []) with
    | none => rfl
    | some el =>
      show (indentChildren (2 ^ 30 - 1) [.element el]).bind _ = none
      rw [hchildren]
      rfl

end MediaTomb.Mxml
