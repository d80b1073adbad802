/-
  `print` of an element tree (`mxml/element.cc`, `mxml/node.cc`), and reading it back.

    * DATA     the trees of `Indent`.
    * PROGRAM  `print_internal` writes the tags, and `escape` the texts and the attribute values.
               Reading back is `parseString`, with any XML parser that conforms.
    * RESULT   what is printed is read back as the tree it was, up to texts side by side, EXACTLY if
               no attribute name is repeated in an element, no text contains a CR and no attribute
               value a tab, a LF or a CR (`print_parse_iff`).  `escape` writes these three as they
               are, and a parser normalizes them: the reference that would survive is `&#9;`.

  The proof follows the document: the tokens of what is printed (`Element.tokens`), the events of
  the tokens (`Element.received`), and when those are the events of the tree (`Element.Steady`).
-/
import MediaTomb.Mxml.Parser

namespace MediaTomb.Mxml

open Lib.Xml

/-! ## The code -/

/-- A character of `escape`. -/
def escapeChar (c : UInt8) : Str :=
  if c = 60 then [38, 108, 116, 59]
  else if c = 62 then [38, 103, 116, 59]
  else if c = 38 then [38, 97, 109, 112, 59]
  else if c = 34 then [38, 113, 117, 111, 116, 59]
  else if c = 39 then [38, 97, 112, 111, 115, 59]
  -- handle control codes
  else if (c ≤ 0x1f ∧ c ≠ 0x09 ∧ c ≠ 0x0d ∧ c ≠ 0x0a) ∨ c = 0x7f then [46]
  else [c]

/-- `Node::escape`, up to the NUL. -/
def Node.escape : Str → Str
  | [] => []
  | c :: str => if c = 0 then [] else escapeChar c ++ escape str

/-- A blank, and `name="value"`. -/
def printAttribute (a : Attribute) : Str :=
  32 :: (a.name ++ 61 :: 34 :: (Node.escape a.value ++ [34]))

mutual

/-- `Element::print_internal` -/
def Element.print : Element → Str
  | .mk name attributes children =>
    60 :: (name ++ (attributes.flatMap printAttribute ++
      if children.isEmpty then [47, 62]
      else 62 :: (printNodes children ++ 60 :: 47 :: (name ++ [62]))))

/-- `print_internal` of each child. -/
def printNodes : List Node → Str
  | [] => []
  | .element el :: nodes => el.print ++ printNodes nodes
  | .text text _ :: nodes => Node.escape (text.getD []) ++ printNodes nodes
  | .comment text _ :: nodes =>
    60 :: 33 :: 45 :: 45 :: (text ++ 45 :: 45 :: 62 :: printNodes nodes)

end

/-! ## The trees -/

/-- Characters of XML, and the only control characters are tab, LF and CR. -/
def GoodText (text : Str) : Prop := Characters text ∧ (0x7f : UInt8) ∉ text

mutual

/-- **What can be printed**: names are names, the texts are good, and there are no comments. -/
def Element.Good : Element → Prop
  | .mk name attributes children =>
    IsName name ∧ (∀ a ∈ attributes, IsName a.name ∧ GoodText a.value) ∧ NodesGood children

def NodesGood : List Node → Prop
  | [] => True
  | .element el :: nodes => el.Good ∧ NodesGood nodes
  | .text text _ :: nodes => GoodText (text.getD []) ∧ NodesGood nodes
  | .comment .. :: _ => False

end

mutual

/-- Something holds of every tag in a tree. -/
def Element.Tags (p : Str → List Attribute → Prop) : Element → Prop
  | .mk name attributes children => p name attributes ∧ NodesTags p children

def NodesTags (p : Str → List Attribute → Prop) : List Node → Prop
  | [] => True
  | .element el :: nodes => el.Tags p ∧ NodesTags p nodes
  | .text .. :: nodes => NodesTags p nodes
  | .comment .. :: nodes => NodesTags p nodes

end

/-- No element has two attributes of one name. -/
def Element.UniqueNames (el : Element) : Prop :=
  el.Tags fun _ attributes => (attributes.map fun a => a.name).Nodup

mutual

/-- Nothing in the tree is normalized: there is no white space but blanks in attribute values, and
    no CR in texts. -/
def Element.Steady : Element → Prop
  | .mk _ attributes children =>
    (∀ a ∈ attributes, (9 : UInt8) ∉ a.value ∧ (10 : UInt8) ∉ a.value ∧ (13 : UInt8) ∉ a.value) ∧
      NodesSteady children

def NodesSteady : List Node → Prop
  | [] => True
  | .element el :: nodes => el.Steady ∧ NodesSteady nodes
  | .text text _ :: nodes => (13 : UInt8) ∉ text.getD [] ∧ NodesSteady nodes
  | .comment .. :: nodes => NodesSteady nodes

end

/-- **Printed and read back, it is the same tree**, up to texts side by side. -/
def ReadBack (parse : Str → Option (List Event)) (el : Element) : Prop :=
  WellFormed el.print ∧ ∃ root, parseString parse el.print = some root ∧ root.joined = el.joined

/-! ## What is escaped -/

/-- A character that `escape` neither ends at nor replaces by a dot. -/
def Printable (c : UInt8) : Prop :=
  c ≠ 0x7f ∧ (0x20 ≤ c.toNat ∨ c = 9 ∨ c = 10 ∨ c = 13)

section

variable {c : UInt8} {s t r : Str}

theorem GoodText.printable (h : GoodText s) : ∀ c ∈ s, Printable c := by
  intro c hc
  refine ⟨?_, h.1.controls hc⟩
  rintro rfl
  exact h.2 hc

theorem Printable.ne_zero (h : Printable c) : c ≠ 0 := by
  rintro rfl
  exact absurd h.2 (by decide)

/-- A special character becomes a reference, and every other stays. -/
theorem escapeChar_cases (h : Printable c) :
    (∃ w, (w, c) ∈ entities ∧ c ∈ specials ∧ escapeChar c = 38 :: w) ∨
      (c ∉ specials ∧ escapeChar c = [c]) := by
  by_cases hspecial : c ∈ specials
  · left
    rcases special_cases hspecial with rfl | rfl | rfl | rfl | rfl
    · exact ⟨[108, 116, 59], by decide, hspecial, rfl⟩
    · exact ⟨[103, 116, 59], by decide, hspecial, rfl⟩
    · exact ⟨[97, 109, 112, 59], by decide, hspecial, rfl⟩
    · exact ⟨[113, 117, 111, 116, 59], by decide, hspecial, rfl⟩
    · exact ⟨[97, 112, 111, 115, 59], by decide, hspecial, rfl⟩
  · right
    refine ⟨hspecial, ?_⟩
    have hcontrol : ¬ ((c ≤ 0x1f ∧ c ≠ 0x09 ∧ c ≠ 0x0d ∧ c ≠ 0x0a) ∨ c = 0x7f) := by
      rintro (⟨hle, h9, h13, h10⟩ | h127)
      · rcases h.2 with hlarge | hc | hc | hc
        · have hsmall : c.toNat ≤ 0x1f := hle
          omega
        · exact h9 hc
        · exact h10 hc
        · exact h13 hc
      · exact h.1 h127
    unfold specials at hspecial
    simp only [List.mem_cons, List.not_mem_nil, or_false, not_or] at hspecial
    obtain ⟨h60, h62, h38, h34, h39⟩ := hspecial
    unfold escapeChar
    rw [if_neg h60, if_neg h62, if_neg h38, if_neg h34, if_neg h39, if_neg hcontrol]

theorem escape_cons (h : c ≠ 0) : Node.escape (c :: s) = escapeChar c ++ Node.escape s := if_neg h

theorem escape_append (h : (0 : UInt8) ∉ s) :
    Node.escape (s ++ t) = Node.escape s ++ Node.escape t := by
  induction s with
  | nil => rfl
  | cons c s ih =>
    rw [List.mem_cons, not_or] at h
    have hc : c ≠ 0 := Ne.symm h.1
    rw [List.cons_append, escape_cons hc, escape_cons hc, ih h.2, List.append_assoc]

/-- A LF comes first only where it did before. -/
theorem head_escape (hs : ∀ c ∈ s, Printable c) (hr : r.head? ≠ some 10) :
    (Node.escape s ++ r).head? = some 10 ↔ s.head? = some 10 := by
  cases s with
  | nil => exact iff_of_false hr (by decide)
  | cons c s =>
    have hc : Printable c := hs c List.mem_cons_self
    rw [escape_cons hc.ne_zero]
    rcases escapeChar_cases hc with ⟨w, -, hspecial, hescape⟩ | ⟨-, hescape⟩
    · rw [hescape]
      have hamp : ¬ (some 38 = some (10 : UInt8)) := by decide
      refine iff_of_false hamp ?_
      intro h
      rw [Option.some.inj h] at hspecial
      exact absurd hspecial (by decide)
    · rw [hescape]
      exact Iff.rfl

/-- **The tokens of what was escaped**: the characters, with the line ends normalized. -/
theorem scan_escape (hs : ∀ c ∈ s, Printable c) (hr : r.head? ≠ some 10) :
    scan (Node.escape s ++ r) = (scan r).map ((normalizeLineEnds s).map tokenOf ++ ·) := by
  induction s with
  | nil => exact Option.map_id'.symm
  | cons c s ih =>
    obtain ⟨hc, hs⟩ := List.forall_mem_cons.mp hs
    have hnext := ih hs
    rw [escape_cons hc.ne_zero]
    rcases escapeChar_cases hc with ⟨w, hentity, hspecial, hescape⟩ | ⟨hspecial, hescape⟩
    · have hcr : c ≠ 13 := by
        rintro rfl
        exact absurd hspecial (by decide)
      rw [hescape, List.cons_append, List.cons_append, List.append_assoc, scan_entity hentity,
        hnext, normalizeLineEnds_cons hcr, List.map_cons, tokenOf_special hspecial, Option.map_map]
      rfl
    · rw [hescape, List.singleton_append, List.cons_append]
      by_cases hcr : c = 13
      · -- a CR is dropped before a LF, here and in the tokens
        rw [hcr, scan_cr, normalizeLineEnds, if_pos rfl]
        by_cases hhead : s.head? = some 10
        · rw [if_pos ((head_escape hs hr).mpr hhead), if_pos hhead, hnext]
        · have hlf : tokenOf 10 = .char 10 := tokenOf_plain (by decide)
          rw [if_neg (mt (head_escape hs hr).mp hhead), if_neg hhead, hnext, List.map_cons, hlf,
            Option.map_map]
          rfl
      · have hamp : c ≠ 38 := by
          rintro rfl
          exact hspecial (by decide)
        rw [scan_char hcr hamp, hnext, normalizeLineEnds_cons hcr, List.map_cons,
          tokenOf_plain hspecial, Option.map_map]
        rfl

end

/-! ## The tokens of what is printed -/

mutual

/-- The tokens of a tree. -/
def Element.tokens : Element → List Token
  | .mk name attributes children =>
    .char 60 :: (name.map .char ++
      ((attributes.flatMap fun a => attributeTokens (a.name, a.value)) ++
        if children.isEmpty then [.char 47, .char 62]
        else .char 62 :: (nodesTokens [] children ++
          .char 60 :: .char 47 :: (name.map .char ++ [.char 62]))))

/-- The tokens of nodes behind some text: line ends are normalized across texts side by side. -/
def nodesTokens (text : Str) : List Node → List Token
  | [] => (normalizeLineEnds text).map tokenOf
  | .element el :: nodes =>
    (normalizeLineEnds text).map tokenOf ++ (el.tokens ++ nodesTokens [] nodes)
  | .text text' _ :: nodes => nodesTokens (text ++ text'.getD []) nodes
  | .comment .. :: nodes => nodesTokens text nodes

end

section

variable {name s text w : Str} {ts : List Token}

theorem scans_one {c : UInt8} (hcr : c ≠ 13) (hamp : c ≠ 38) : Scans [c] [.char c] :=
  fun _ => scan_char hcr hamp

theorem scans_two {c d : UInt8} (hc : c ≠ 13 ∧ c ≠ 38) (hd : d ≠ 13 ∧ d ≠ 38) :
    Scans [c, d] [.char c, .char d] :=
  (scans_one hc.1 hc.2).append (scans_one hd.1 hd.2)

/-- A name has the tokens that it is. -/
theorem scans_name (h : IsName name) : Scans name (name.map .char) := by
  apply scans_plain
  intro c hc
  have hstop := h.isDelimiter c hc
  constructor
  · rintro rfl
    exact absurd hstop (by decide)
  · rintro rfl
    exact absurd hstop (by decide)

/-- What was escaped, with something behind it that does not begin with a LF. -/
theorem scans_escape (hs : ∀ c ∈ s, Printable c) (hw : Scans w ts) (hne : w ≠ [])
    (hhead : w.head? ≠ some 10) :
    Scans (Node.escape s ++ w) ((normalizeLineEnds s).map tokenOf ++ ts) := by
  intro r
  have hr : (w ++ r).head? ≠ some 10 := by
    obtain ⟨c, w, rfl⟩ := List.exists_cons_of_ne_nil hne
    exact hhead
  rw [List.append_assoc, scan_escape hs hr, hw, Option.map_map]
  congr 1
  funext rest
  exact (List.append_assoc _ ts rest).symm

theorem scans_attribute {a : Attribute} (hname : IsName a.name) (hvalue : GoodText a.value) :
    Scans (printAttribute a) (attributeTokens (a.name, a.value)) := by
  have hblank : Scans [32] [.char 32] := scans_one (by decide) (by decide)
  have hequals : Scans [61, 34] [.char 61, .char 34] := scans_two (by decide) (by decide)
  have hquote : Scans [34] [.char 34] := scans_one (by decide) (by decide)
  have hescape := scans_escape hvalue.printable hquote (List.cons_ne_nil _ _) (by decide)
  exact hblank.append ((scans_name hname).append (hequals.append hescape))

theorem scans_attributes {attributes : List Attribute}
    (h : ∀ a ∈ attributes, IsName a.name ∧ GoodText a.value) :
    Scans (attributes.flatMap printAttribute)
      (attributes.flatMap fun a => attributeTokens (a.name, a.value)) := by
  induction attributes with
  | nil => exact scans_nil
  | cons a attributes ih =>
    obtain ⟨⟨hname, hvalue⟩, hrest⟩ := List.forall_mem_cons.mp h
    rw [List.flatMap_cons, List.flatMap_cons]
    exact (scans_attribute hname hvalue).append (ih hrest)

end

mutual

/-- **The tokens of what is printed**, whatever follows. -/
theorem Element.scans_print : ∀ (el : Element), el.Good → Scans el.print el.tokens
  | .mk name attributes children => by
    rintro ⟨hname, hattributes, hchildren⟩
    have hless : Scans [60] [.char 60] := scans_one (by decide) (by decide)
    have hgreater : Scans [62] [.char 62] := scans_one (by decide) (by decide)
    rw [Element.print, Element.tokens]
    refine hless.append ((scans_name hname).append ((scans_attributes hattributes).append ?_))
    cases children with
    | nil => exact scans_two (by decide) (by decide)
    | cons node nodes =>
      have hslash : Scans [60, 47] [.char 60, .char 47] := scans_two (by decide) (by decide)
      have hend : Scans (60 :: 47 :: (name ++ [62]))
          (.char 60 :: .char 47 :: (name.map .char ++ [.char 62])) :=
        hslash.append ((scans_name hname).append hgreater)
      exact hgreater.append (scans_printNodes (node :: nodes) hchildren [] (by simp) _ _ hend
        (List.cons_ne_nil _ _) (by simp))

theorem scans_printNodes : ∀ (nodes : List Node), NodesGood nodes → ∀ (text : Str),
    (∀ c ∈ text, Printable c) → ∀ (w : Str) (ts : List Token), Scans w ts → w ≠ [] →
    w.head? ≠ some 10 → Scans (Node.escape text ++ (printNodes nodes ++ w))
      (nodesTokens text nodes ++ ts)
  | [] => fun _ text htext w ts hw hne hhead => scans_escape htext hw hne hhead
  | .element el :: nodes => by
    rintro ⟨hel, hnodes⟩ text htext w ts hw hne hhead
    have hrest := scans_printNodes nodes hnodes [] (by simp) w ts hw hne hhead
    have hfirst : el.print.head? = some 60 := by
      obtain ⟨name, attributes, children⟩ := el
      rfl
    have hboth := (el.scans_print hel).append hrest
    have hbegin : (el.print ++ (Node.escape [] ++ (printNodes nodes ++ w))).head? = some 60 := by
      rw [List.head?_append, hfirst]
      rfl
    have hall := scans_escape htext hboth (by rintro hnil; rw [hnil] at hbegin; cases hbegin)
      (by rw [hbegin]; decide)
    rw [printNodes, nodesTokens, List.append_assoc, List.append_assoc, List.append_assoc]
    exact hall
  | .text text' _ :: nodes => by
    rintro ⟨htext', hnodes⟩ text htext w ts hw hne hhead
    have hprintable : ∀ c ∈ text ++ text'.getD [], Printable c := by
      intro c hc
      rcases List.mem_append.mp hc with hc | hc
      · exact htext c hc
      · exact htext'.printable c hc
    have hnoNul : (0 : UInt8) ∉ text := fun h => (htext 0 h).ne_zero rfl
    have hrest := scans_printNodes nodes hnodes _ hprintable w ts hw hne hhead
    rw [printNodes, nodesTokens, List.append_assoc, ← List.append_assoc (Node.escape text),
      ← escape_append hnoNul]
    exact hrest
  | .comment .. :: _ => fun h => h.elim

end

/-! ## What is reported of the tokens -/

/-- Data that comes one character after the other. -/
def pieces (text : Str) : List Node := text.map fun c => .text (some [c]) .string

mutual

/-- **The tree that is reported**: normalized, and the data in pieces. -/
def Element.received : Element → Element
  | .mk name attributes children =>
    .mk name (attributes.map fun a => { name := a.name, value := Lib.Xml.received a.value })
      (nodesReceived [] children)

/-- Nodes behind some text. -/
def nodesReceived (text : Str) : List Node → List Node
  | [] => pieces (normalizeLineEnds text)
  | .element el :: nodes =>
    pieces (normalizeLineEnds text) ++ .element el.received :: nodesReceived [] nodes
  | .text text' _ :: nodes => nodesReceived (text ++ text'.getD []) nodes
  | .comment .. :: nodes => nodesReceived text nodes

end

theorem nodesEvents_append (xs ys : List Node) :
    nodesEvents (xs ++ ys) = nodesEvents xs ++ nodesEvents ys := by
  induction xs with
  | nil => rfl
  | cons node xs ih =>
    rw [List.cons_append]
    cases node with
    | text text vtype =>
      rw [nodesEvents, nodesEvents, ih]
      rfl
    | element el => rw [nodesEvents, nodesEvents, ih, List.append_assoc]
    | comment text before => rw [nodesEvents, nodesEvents, ih]

theorem nodesEvents_pieces (s : Str) : nodesEvents (pieces s) = s.map fun c => .data [c] := by
  induction s with
  | nil => rfl
  | cons c s ih => exact congrArg (Event.data [c] :: ·) ih

mutual

/-- **The events of an element**, behind its `<`; so many steps are taken. -/
theorem Element.openTag_tokens : ∀ (el : Element), el.Good → ∃ k < el.tokens.length,
    ∀ (fuel : Nat) (opened : List Str) (rest : List Token),
      openTag (content (k + fuel)) opened (el.tokens.tail ++ rest) =
        (content fuel opened rest).map (el.received.eventsOf ++ ·)
  | .mk name attributes children => by
    rintro ⟨hname, hattributes, hchildren⟩
    have hnames : ∀ a ∈ attributes.map fun a => (a.name, a.value), ∀ c ∈ a.1,
        isDelimiter c = false := by
      intro a ha
      obtain ⟨a, hmem, rfl⟩ := List.mem_map.mp ha
      exact (hattributes a hmem).1.isDelimiter
    have htokens : (attributes.flatMap fun a => attributeTokens (a.name, a.value)) =
        (attributes.map fun a => (a.name, a.value)).flatMap attributeTokens :=
      (List.flatMap_map _ _ _).symm
    have hreceived : ((attributes.map fun a => (a.name, a.value)).map fun a =>
        (a.1, Lib.Xml.received a.2)) =
          (attributes.map fun a => ({ name := a.name, value := Lib.Xml.received a.value } :
            Attribute)).map fun a => (a.name, a.value) := by
      rw [List.map_map, List.map_map]
      rfl
    rw [Element.tokens, htokens]
    cases children with
    | nil =>
      refine ⟨0, Nat.succ_pos _, ?_⟩
      intro fuel opened rest
      have hempty := @openTag_empty name rest (content (0 + fuel)) opened _
        hname.isDelimiter hnames
      rw [hreceived, Nat.zero_add] at hempty
      rw [List.tail_cons, List.append_assoc, List.append_assoc, Nat.zero_add]
      exact hempty
    | cons node nodes =>
      obtain ⟨k, hk, hcontent⟩ := content_nodesTokens (node :: nodes) hchildren []
      refine ⟨k + 1, ?_, ?_⟩
      · rw [List.length_cons, List.length_append, List.length_append]
        show k + 1 < _ + (_ + (nodesTokens [] (node :: nodes) ++ _).length.succ) + 1
        rw [List.length_append]
        omega
      · intro fuel opened rest
        have hopen := @openTag_open name (nodesTokens [] (node :: nodes) ++
          .char 60 :: .char 47 :: (name.map .char ++ .char 62 :: rest)) (content (k + 1 + fuel))
            opened _ hname.isDelimiter hnames
        have hsteps : k + 1 + fuel = k + (fuel + 1) := by omega
        rw [hreceived, hsteps, hcontent, content_stop, Option.map_map, Option.map_map] at hopen
        have hshape : (name.map Token.char ++
            ((attributes.map fun a => (a.name, a.value)).flatMap attributeTokens ++
              .char 62 :: (nodesTokens [] (node :: nodes) ++
                .char 60 :: .char 47 :: (name.map .char ++ [.char 62])))) ++ rest =
            name.map Token.char ++
              ((attributes.map fun a => (a.name, a.value)).flatMap attributeTokens ++
                .char 62 :: (nodesTokens [] (node :: nodes) ++
                  .char 60 :: .char 47 :: (name.map .char ++ .char 62 :: rest))) := by
          simp only [List.append_assoc, List.cons_append, List.nil_append]
        rw [List.tail_cons, hsteps]
        refine (congrArg _ hshape).trans (hopen.trans ?_)
        congr 1
        funext es
        rw [Element.received, Element.eventsOf]
        simp only [Function.comp_apply, List.cons_append, List.append_assoc, List.nil_append]

/-- The events of what is in an element. -/
theorem content_nodesTokens : ∀ (nodes : List Node), NodesGood nodes → ∀ (text : Str),
    ∃ k ≤ (nodesTokens text nodes).length, ∀ (fuel : Nat) (name : Str) (opened : List Str)
      (rest : List Token),
        content (k + fuel) (name :: opened) (nodesTokens text nodes ++ rest) =
          (content fuel (name :: opened) rest).map (nodesEvents (nodesReceived text nodes) ++ ·)
  | [] => by
    intro _ text
    rw [nodesTokens, nodesReceived, nodesEvents_pieces]
    refine ⟨(normalizeLineEnds text).length, ?_, ?_⟩
    · rw [List.length_map]
    · intro fuel name opened rest
      exact content_text (normalizeLineEnds text)
  | .element el :: nodes => by
    rintro ⟨hel, hnodes⟩ text
    obtain ⟨k, hk, hopen⟩ := el.openTag_tokens hel
    obtain ⟨m, hm, hcontent⟩ := content_nodesTokens nodes hnodes []
    rw [nodesTokens, nodesReceived, nodesEvents_append, nodesEvents_pieces, nodesEvents]
    refine ⟨(normalizeLineEnds text).length + (k + 1 + m), ?_, ?_⟩
    · rw [List.length_append, List.length_append, List.length_map]
      omega
    · intro fuel name opened rest
      have hfirst : el.tokens ++ (nodesTokens [] nodes ++ rest) =
          .char 60 :: (el.tokens.tail ++ (nodesTokens [] nodes ++ rest)) := by
        obtain ⟨elName, attributes, children⟩ := el
        rfl
      have hstart : content (k + 1 + m + fuel) (name :: opened)
          (el.tokens ++ (nodesTokens [] nodes ++ rest)) =
            openTag (content (k + (m + fuel))) (name :: opened)
              (el.tokens.tail ++ (nodesTokens [] nodes ++ rest)) := by
        have hsteps : k + 1 + m + fuel = k + (m + fuel) + 1 := by omega
        rw [hsteps, hfirst]
        obtain ⟨elName, attributes, children⟩ := el
        rw [Element.tokens, List.tail_cons, List.append_assoc]
        exact content_start hel.1
      rw [Nat.add_assoc, List.append_assoc, List.append_assoc, content_text, hstart, hopen, hcontent,
        Option.map_map, Option.map_map]
      congr 1
      funext es
      simp only [Function.comp_apply, List.append_assoc]
  | .text text' _ :: nodes => by
    rintro ⟨-, hnodes⟩ text
    rw [nodesTokens, nodesReceived]
    exact content_nodesTokens nodes hnodes (text ++ text'.getD [])
  | .comment .. :: _ => fun h => h.elim

end

/-- **What is to be reported of a printed tree.** -/
theorem reference_print {el : Element} (hgood : el.Good) :
    reference el.print = some el.received.eventsOf := by
  obtain ⟨k, hk, hopen⟩ := el.openTag_tokens hgood
  have hscan : (lex 0 (normalizeLineEnds el.print)) = some el.tokens :=
    scan_of_scans (el.scans_print hgood)
  unfold reference
  rw [hscan, Option.bind_some]
  have hfirst : expect [60] el.tokens = some el.tokens.tail := by
    obtain ⟨name, attributes, children⟩ := el
    rfl
  have hsteps : el.tokens.length = k + (el.tokens.length - k - 1 + 1) := by omega
  have hall := hopen (el.tokens.length - k - 1 + 1) [] []
  unfold document
  rw [hfirst, Option.bind_some, hsteps]
  rw [List.append_nil, content, if_pos rfl, Option.map_some, List.append_nil] at hall
  exact hall

/-! ## It is well-formed -/

section

variable {c : Char} {s : Str}

theorem characters_two {b d : UInt8} (hb : 0x20 ≤ b.toNat ∧ b.toNat < 0x80)
    (hd : 0x20 ≤ d.toNat ∧ d.toNat < 0x80) : Characters [b, d] :=
  (characters_one hb).append (characters_one hd)

theorem characters_entity {w : Str} {b : UInt8} (h : (w, b) ∈ entities) :
    Characters (38 :: w) := by
  apply characters_ascii
  unfold entities at h
  simp only [List.mem_cons, List.not_mem_nil, or_false, Prod.mk.injEq] at h
  rcases h with ⟨rfl, -⟩ | ⟨rfl, -⟩ | ⟨rfl, -⟩ | ⟨rfl, -⟩ | ⟨rfl, -⟩
  · simp
  · simp
  · simp
  · simp
  · simp

/-- Bytes from `0x80` on are no control characters and are not referred to. -/
theorem escape_large (h : ∀ b ∈ s, 0x80 ≤ b.toNat) : Node.escape s = s := by
  induction s with
  | nil => rfl
  | cons b s ih =>
    obtain ⟨hb, hs⟩ := List.forall_mem_cons.mp h
    have hprintable : Printable b := by
      refine ⟨?_, Or.inl (by omega)⟩
      rintro rfl
      exact absurd hb (by decide)
    rw [escape_cons hprintable.ne_zero, ih hs]
    rcases escapeChar_cases hprintable with ⟨w, -, hspecial, -⟩ | ⟨-, hescape⟩
    · -- these are below `0x80`
      rcases special_cases hspecial with rfl | rfl | rfl | rfl | rfl
      · exact absurd hb (by decide)
      · exact absurd hb (by decide)
      · exact absurd hb (by decide)
      · exact absurd hb (by decide)
      · exact absurd hb (by decide)
    · rw [hescape]
      rfl

/-- What is written for a character are characters. -/
theorem characters_escape_char (hchar : isChar c = true)
    (hprintable : ∀ b ∈ String.utf8EncodeChar c, Printable b) :
    Characters (Node.escape (String.utf8EncodeChar c)) := by
  have hself : Characters (String.utf8EncodeChar c) := by
    refine ⟨[c], ?_, ?_⟩
    · intro d hd
      rw [List.mem_singleton.mp hd]
      exact hchar
    · rw [Lib.Utf8.encode_cons]
      exact List.append_nil _
  rcases Lib.Utf8.encodeChar_cases c with ⟨-, henc⟩ | ⟨-, hlarge⟩
  · rw [henc] at hself hprintable ⊢
    have hone := hprintable _ (List.mem_singleton_self _)
    rw [escape_cons hone.ne_zero]
    rcases escapeChar_cases hone with ⟨w, hentity, -, hescape⟩ | ⟨-, hescape⟩
    · rw [hescape]
      exact (characters_entity hentity).append characters_nil
    · rw [hescape]
      exact hself
  · rw [escape_large hlarge]
    exact hself

theorem GoodText.characters_escape (h : GoodText s) : Characters (Node.escape s) := by
  have hprintable := h.printable
  obtain ⟨⟨cs, hcs, rfl⟩, -⟩ := h
  induction cs with
  | nil => exact characters_nil
  | cons c cs ih =>
    obtain ⟨hc, hrest⟩ := List.forall_mem_cons.mp hcs
    rw [Lib.Utf8.encode_cons] at hprintable ⊢
    have hfirst : ∀ b ∈ String.utf8EncodeChar c, Printable b :=
      fun b hb => hprintable b (List.mem_append_left _ hb)
    have hnoNul : (0 : UInt8) ∉ String.utf8EncodeChar c := fun hb => (hfirst 0 hb).ne_zero rfl
    rw [escape_append hnoNul]
    exact (characters_escape_char hc hfirst).append
      (ih hrest fun b hb => hprintable b (List.mem_append_right _ hb))

theorem characters_attributes {attributes : List Attribute}
    (h : ∀ a ∈ attributes, IsName a.name ∧ GoodText a.value) :
    Characters (attributes.flatMap printAttribute) := by
  induction attributes with
  | nil => exact characters_nil
  | cons a attributes ih =>
    obtain ⟨⟨hname, hvalue⟩, hrest⟩ := List.forall_mem_cons.mp h
    have hblank : Characters [32] := characters_one (by decide)
    have hequals : Characters [61, 34] := characters_two (by decide) (by decide)
    have hquote : Characters [34] := characters_one (by decide)
    rw [List.flatMap_cons]
    refine Characters.append ?_ (ih hrest)
    exact hblank.append (hname.characters.append
      (hequals.append (hvalue.characters_escape.append hquote)))

end

mutual

theorem Element.characters_print : ∀ (el : Element), el.Good → Characters el.print
  | .mk name attributes children => by
    rintro ⟨hname, hattributes, hchildren⟩
    have hless : Characters [60] := characters_one (by decide)
    have hgreater : Characters [62] := characters_one (by decide)
    rw [Element.print]
    refine hless.append (hname.characters.append ((characters_attributes hattributes).append ?_))
    cases children with
    | nil => exact characters_two (by decide) (by decide)
    | cons node nodes =>
      have hslash : Characters [60, 47] := characters_two (by decide) (by decide)
      exact hgreater.append ((characters_printNodes (node :: nodes) hchildren).append
        (hslash.append (hname.characters.append hgreater)))

theorem characters_printNodes : ∀ (nodes : List Node), NodesGood nodes →
    Characters (printNodes nodes)
  | [] => fun _ => characters_nil
  | .element el :: nodes =>
    fun h => (el.characters_print h.1).append (characters_printNodes nodes h.2)
  | .text _ _ :: nodes =>
    fun h => h.1.characters_escape.append (characters_printNodes nodes h.2)
  | .comment .. :: _ => fun h => h.elim

end

/-- Something holds of every tag that is reported. -/
def Starts (p : Str → List (Str × Str) → Prop) (es : List Event) : Prop :=
  ∀ name attributes, .start name attributes ∈ es → p name attributes

section

variable {p : Str → List (Str × Str) → Prop} {es es' : List Event}

theorem starts_append : Starts p (es ++ es') ↔ Starts p es ∧ Starts p es' := by
  constructor
  · intro h
    exact ⟨fun name attributes hmem => h name attributes (List.mem_append_left _ hmem),
      fun name attributes hmem => h name attributes (List.mem_append_right _ hmem)⟩
  · rintro ⟨h, h'⟩ name attributes hmem
    rcases List.mem_append.mp hmem with hmem | hmem
    · exact h name attributes hmem
    · exact h' name attributes hmem

theorem starts_data (s : Str) : Starts p (s.map fun c => .data [c]) := by
  intro name attributes hmem
  obtain ⟨c, -, hc⟩ := List.mem_map.mp hmem
  cases hc

theorem starts_tag {name : Str} {attributes : List (Str × Str)} :
    Starts p (.start name attributes :: (es ++ [.stop name])) ↔ p name attributes ∧ Starts p es := by
  have hstop : Starts p [.stop name] := by
    intro name' attributes' hmem
    cases List.mem_singleton.mp hmem
  constructor
  · intro h
    refine ⟨h name attributes List.mem_cons_self, ?_⟩
    intro name' attributes' hmem
    exact h name' attributes' (List.mem_cons_of_mem _ (List.mem_append_left _ hmem))
  · rintro ⟨h, hes⟩ name' attributes' hmem
    rcases List.mem_cons.mp hmem with hfirst | hmem
    · cases hfirst
      exact h
    · exact starts_append.mpr ⟨hes, hstop⟩ name' attributes' hmem

/-- The attributes of a tag as they are reported. -/
def reported (attributes : List Attribute) : List (Str × Str) :=
  attributes.map fun a => (a.name, Lib.Xml.received a.value)

end

mutual

/-- **The tags that are reported are the tags of the tree.** -/
theorem Element.starts_received (p : Str → List (Str × Str) → Prop) : ∀ (el : Element),
    Starts p el.received.eventsOf ↔ el.Tags fun name attributes => p name (reported attributes)
  | .mk name attributes children => by
    rw [Element.received, Element.eventsOf, starts_tag, Element.Tags,
      starts_nodesReceived p children [], List.map_map]
    rfl

theorem starts_nodesReceived (p : Str → List (Str × Str) → Prop) : ∀ (nodes : List Node)
    (text : Str), Starts p (nodesEvents (nodesReceived text nodes)) ↔
      NodesTags (fun name attributes => p name (reported attributes)) nodes
  | [] => by
    intro text
    rw [nodesReceived, nodesEvents_pieces, NodesTags]
    exact iff_true_intro (starts_data _)
  | .element el :: nodes => by
    intro text
    rw [nodesReceived, nodesEvents_append, nodesEvents_pieces, nodesEvents, starts_append,
      starts_append, el.starts_received p, starts_nodesReceived p nodes [], NodesTags]
    exact and_iff_right (starts_data _)
  | .text text' _ :: nodes => fun text => starts_nodesReceived p nodes (text ++ text'.getD [])
  | .comment .. :: nodes => fun text => starts_nodesReceived p nodes text

end

mutual

theorem Element.tags_good : ∀ (el : Element), el.Good →
    el.Tags fun name attributes => IsName name ∧ ∀ a ∈ reported attributes, IsName a.1
  | .mk name attributes children => by
    rintro ⟨hname, hattributes, hchildren⟩
    refine ⟨⟨hname, ?_⟩, nodesTags_good children hchildren⟩
    intro a ha
    obtain ⟨a, hmem, rfl⟩ := List.mem_map.mp ha
    exact (hattributes a hmem).1

theorem nodesTags_good : ∀ (nodes : List Node), NodesGood nodes →
    NodesTags (fun name attributes => IsName name ∧ ∀ a ∈ reported attributes, IsName a.1) nodes
  | [] => fun _ => trivial
  | .element el :: nodes => fun h => ⟨el.tags_good h.1, nodesTags_good nodes h.2⟩
  | .text .. :: nodes => fun h => nodesTags_good nodes h.2
  | .comment .. :: _ => fun h => h.elim

end

theorem named_received {el : Element} (hgood : el.Good) : Named el.received.eventsOf :=
  (el.starts_received _).mpr (el.tags_good hgood)

theorem unique_received (el : Element) : Unique el.received.eventsOf ↔ el.UniqueNames := by
  have hnames : ∀ attributes : List Attribute,
      (reported attributes).map Prod.fst = attributes.map fun a => a.name := by
    intro attributes
    unfold reported
    rw [List.map_map]
    rfl
  have hall := el.starts_received fun _ attributes => (attributes.map Prod.fst).Nodup
  simp only [hnames] at hall
  exact hall

/-! ## When it is the tree that was printed -/

section

variable {s t : Str} {xs ys : List Node} {el el' : Element}

theorem joinNodes_pieces (s : Str) (nodes : List Node) :
    joinNodes (pieces s ++ nodes) = addText s (joinNodes nodes) := by
  induction s with
  | nil => exact (addText_nil _).symm
  | cons c s ih =>
    show addText [c] (joinNodes (pieces s ++ nodes)) = _
    rw [ih, addText_addText]
    rfl

theorem addText_nil_inj : addText s [] = addText t [] ↔ s = t := by
  unfold addText
  by_cases hs : s = []
  · by_cases ht : t = []
    · exact iff_of_true (by rw [hs, ht]) (by rw [hs, ht])
    · rw [if_pos hs, if_neg ht, hs]
      exact iff_of_false (List.cons_ne_nil _ _).symm (Ne.symm ht)
  · by_cases ht : t = []
    · rw [if_neg hs, if_pos ht, ht]
      exact iff_of_false (List.cons_ne_nil _ _) hs
    · rw [if_neg hs, if_neg ht]
      simp

/-- In front of elements a text is apart. -/
theorem addText_element_inj : addText s (.element el :: xs) = addText t (.element el' :: ys) ↔
    s = t ∧ el = el' ∧ xs = ys := by
  unfold addText
  by_cases hs : s = []
  · by_cases ht : t = []
    · rw [hs, ht, if_pos rfl]
      simp
    · rw [if_pos hs, if_neg ht, hs]
      simp [Ne.symm ht]
  · by_cases ht : t = []
    · rw [if_neg hs, if_pos ht, ht]
      simp [hs]
    · rw [if_neg hs, if_neg ht]
      simp

theorem attributes_received (attributes : List Attribute) :
    ((attributes.map fun a => ({ name := a.name, value := Lib.Xml.received a.value } :
      Attribute)).map plainAttribute = attributes.map plainAttribute) ↔
        ∀ a ∈ attributes, (9 : UInt8) ∉ a.value ∧ (10 : UInt8) ∉ a.value ∧
          (13 : UInt8) ∉ a.value := by
  rw [List.map_map, List.map_inj_left]
  refine forall₂_congr fun a _ => ?_
  rw [← received_eq_self]
  obtain ⟨name, value, type⟩ := a
  simp [plainAttribute]

end

mutual

/-- **What is reported is the tree, exactly if nothing is normalized.** -/
theorem Element.joined_received : ∀ (el : Element), el.Good →
    (el.received.joined = el.joined ↔ el.Steady)
  | .mk name attributes children => by
    rintro ⟨-, -, hchildren⟩
    have hnodes := joinNodes_received children hchildren []
    rw [addText_nil] at hnodes
    rw [Element.received, Element.joined, Element.joined, Element.Steady, Element.mk.injEq,
      attributes_received, hnodes]
    simp

theorem joinNodes_received : ∀ (nodes : List Node), NodesGood nodes → ∀ (text : Str),
    (joinNodes (nodesReceived text nodes) = addText text (joinNodes nodes) ↔
      (13 : UInt8) ∉ text ∧ NodesSteady nodes)
  | [] => by
    intro _ text
    have hpieces := joinNodes_pieces (normalizeLineEnds text) []
    rw [List.append_nil] at hpieces
    rw [nodesReceived, hpieces, ← normalizeLineEnds_eq_self]
    show addText _ [] = addText _ [] ↔ _
    rw [addText_nil_inj, NodesSteady, and_true]
  | .element el :: nodes => by
    rintro ⟨hel, hnodes⟩ text
    have hrest := joinNodes_received nodes hnodes []
    rw [addText_nil] at hrest
    rw [nodesReceived, joinNodes_pieces, joinNodes, joinNodes, addText_element_inj,
      normalizeLineEnds_eq_self, el.joined_received hel, hrest, NodesSteady]
    simp
  | .text text' _ :: nodes => by
    rintro ⟨-, hnodes⟩ text
    have hrest := joinNodes_received nodes hnodes (text ++ text'.getD [])
    rw [nodesReceived, joinNodes, addText_addText, hrest, NodesSteady, List.mem_append, not_or,
      and_assoc]
  | .comment .. :: _ => fun h => h.elim

end

theorem nodesNoComment_append {xs ys : List Node} (hxs : NodesNoComment xs)
    (hys : NodesNoComment ys) : NodesNoComment (xs ++ ys) := by
  induction xs with
  | nil => exact hys
  | cons node xs ih =>
    cases node with
    | text text vtype => exact ih hxs
    | element el => exact ⟨hxs.1, ih hxs.2⟩
    | comment text before => exact hxs.elim

theorem nodesNoComment_pieces (s : Str) : NodesNoComment (pieces s) := by
  induction s with
  | nil => trivial
  | cons c s ih => exact ih

mutual

theorem Element.noComment_received : ∀ (el : Element), el.received.NoComment
  | .mk _ _ children => nodesNoComment_received children []

theorem nodesNoComment_received : ∀ (nodes : List Node) (text : Str),
    NodesNoComment (nodesReceived text nodes)
  | [], text => nodesNoComment_pieces (normalizeLineEnds text)
  | .element el :: nodes, text =>
    nodesNoComment_append (nodesNoComment_pieces (normalizeLineEnds text))
      ⟨el.noComment_received, nodesNoComment_received nodes []⟩
  | .text text' _ :: nodes, text => nodesNoComment_received nodes (text ++ text'.getD [])
  | .comment .. :: nodes, text => nodesNoComment_received nodes text

end

/-! ## Printed and read back -/

section

variable {parse : Str → Option (List Event)} {el : Element}

/-- What is printed is well-formed, unless an attribute is repeated. -/
theorem wellFormed_print (hgood : el.Good) : WellFormed el.print ↔ el.UniqueNames := by
  rw [← unique_received]
  constructor
  · rintro ⟨-, es, hes, -, hunique⟩
    rw [reference_print hgood] at hes
    rw [Option.some.inj hes]
    exact hunique
  · intro hunique
    exact ⟨el.characters_print hgood, _, reference_print hgood, named_received hgood, hunique⟩

/-- **The tree that is read back**, by any parser that conforms. -/
theorem parseString_print (hconf : Conforming parse) (hgood : el.Good)
    (hunique : el.UniqueNames) :
    ∃ root, parseString parse el.print = some root ∧ root.joined = el.received.joined := by
  obtain ⟨hreport, -⟩ := hconf el.print _ (el.characters_print hgood) (reference_print hgood)
    (named_received hgood)
  obtain ⟨got, hgot, hmerge⟩ := hreport ((unique_received el).mpr hunique)
  obtain ⟨root, hroot, hjoined⟩ := callbacks_merge el.noComment_received hmerge
  refine ⟨root, ?_, hjoined⟩
  unfold parseString
  rw [hgot, Option.bind_some, hroot]

/-- **Headline.** A tree is the same when it is printed and read back, exactly if no element repeats
    an attribute name and nothing in it is normalized. -/
theorem print_parse_iff (hconf : Conforming parse) (hgood : el.Good) :
    ReadBack parse el ↔ el.UniqueNames ∧ el.Steady := by
  rw [← el.joined_received hgood]
  constructor
  · rintro ⟨hwf, root, hroot, hsame⟩
    have hunique := (wellFormed_print hgood).mp hwf
    obtain ⟨root', hroot', hjoined⟩ := parseString_print hconf hgood hunique
    rw [hroot] at hroot'
    rw [Option.some.inj hroot'] at hsame
    exact ⟨hunique, hjoined.symm.trans hsame⟩
  · rintro ⟨hunique, hsame⟩
    obtain ⟨root, hroot, hjoined⟩ := parseString_print hconf hgood hunique
    exact ⟨(wellFormed_print hgood).mpr hunique, root, hroot, hjoined.trans hsame⟩

end

/-- `<a b="c">d&amp;<e/></a>` is read back. -/
theorem print_parse_nested :
    ReadBack referenceParser (.mk [97] [{ name := [98], value := [99] }]
      [.text (some [100, 38]) .string, .element (.mk [101] [] [])]) := by
  have ha : IsName [97] := ⟨'a', [], by decide, by simp, rfl⟩
  have hb : IsName [98] := ⟨'b', [], by decide, by simp, rfl⟩
  have he : IsName [101] := ⟨'e', [], by decide, by simp, rfl⟩
  have hvalue : GoodText [99] := ⟨characters_one (by decide), by decide⟩
  have htext : GoodText [100, 38] := ⟨characters_two (by decide) (by decide), by decide⟩
  have hgood : (Element.mk [97] [{ name := [98], value := [99] }]
      [.text (some [100, 38]) .string, .element (.mk [101] [] [])]).Good := by
    refine ⟨ha, ?_, htext, ⟨he, by simp, trivial⟩, trivial⟩
    intro a hmem
    rw [List.mem_singleton.mp hmem]
    exact ⟨hb, hvalue⟩
  refine (print_parse_iff conforming_referenceParser hgood).mpr ⟨?_, ?_⟩
  · exact ⟨by simp, ⟨by simp, trivial⟩, trivial⟩
  · exact ⟨by simp, by simp, ⟨by simp, trivial⟩, trivial⟩

/-- A tab in an attribute value is a blank when it is read back. -/
theorem tab_not_read_back : ¬ ∀ (parse : Str → Option (List Event)) (el : Element),
    Conforming parse → el.Good → ReadBack parse el := by
  intro h
  have ha : IsName [97] := ⟨'a', [], by decide, by simp, rfl⟩
  have hb : IsName [98] := ⟨'b', [], by decide, by simp, rfl⟩
  have hvalue : GoodText [99, 9, 100] :=
    ⟨⟨['c', '\t', 'd'], by simp [isChar, inRanges], rfl⟩, by decide⟩
  have hgood : (Element.mk [97] [{ name := [98], value := [99, 9, 100] }] []).Good := by
    refine ⟨ha, ?_, trivial⟩
    intro a hmem
    rw [List.mem_singleton.mp hmem]
    exact ⟨hb, hvalue⟩
  obtain ⟨-, root, hroot, hsame⟩ := h referenceParser _ conforming_referenceParser hgood
  have hread : parseString referenceParser
      (Element.print (.mk [97] [{ name := [98], value := [99, 9, 100] }] [])) =
        some (.mk [97] [{ name := [98], value := [99, 32, 100] }] []) := rfl
  rw [hread] at hroot
  rw [← Option.some.inj hroot] at hsame
  simp [Element.joined, plainAttribute] at hsame

end MediaTomb.Mxml
