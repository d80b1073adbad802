/-
  The callbacks of the XML parser (`mxml/parser_expat.cc`), which build the tree.

    * DATA     `curEl` is the element that is open, and `elements` the stack of those around it.
               Both point INTO the tree of the document: what is appended to `curEl` is appended
               there.  The model keeps the tree as a value, and the pointers as paths in it; children
               are only appended, so a path leads to the same element for ever.
    * PROGRAM  each event of the parser is a call of its callback.
    * RESULT   the events of a tree build that tree, and it does not matter into how many pieces
               character data is cut (`callbacks_merge`): the tree is the same up to texts that stand
               side by side.
-/
import MediaTomb.Mxml.Indent
import MediaTomb.Lib.Xml

namespace MediaTomb.Mxml

open Lib.Xml

/-! ## The code -/

def Element.append : Element → Node → Element
  | .mk name attributes children, node => .mk name attributes (children ++ [node])

/-- A child is changed, if it is an element. -/
def Node.modify (f : Element → Element) : Node → Node
  | .element el => .element (f el)
  | node => node

/-- The element at a path is changed: each number is the index of a child. -/
def Element.modifyAt (f : Element → Element) : List Nat → Element → Element
  | [], el => f el
  | i :: path, .mk name attributes children =>
    .mk name attributes (children.modify i (Node.modify (Element.modifyAt f path)))

/-- The element at a path. -/
def Element.atPath : List Nat → Element → Option Element
  | [], el => some el
  | i :: path, el =>
    match el.children[i]? with
    | some (.element child) => child.atPath path
    | _ => none

/-- The members of `Parser`, and of its document the root and what is appended besides. -/
structure Parser where
  root : Option Element
  others : List Node
  curEl : Option (List Nat)
  elements : List (List Nat)

/-- As `parse` begins. -/
def Parser.init : Parser := { root := none, others := [], curEl := none, elements := [] }

/-- `curEl->appendChild(node)`, or `document->appendChild(node)`. -/
def Parser.appendChild (parser : Parser) (node : Node) : Parser :=
  match parser.curEl with
  | none => { parser with others := parser.others ++ [node] }
  | some path =>
    { parser with root := parser.root.map (Element.modifyAt (fun el => el.append node) path) }

/-- `new Element(name)` with its attributes. -/
def newElement (name : Str) (attrs : List (Str × Str)) : Element :=
  .mk name (attrs.map fun attr => { name := attr.1, value := attr.2 }) []

def Parser.elementStart (parser : Parser) (name : Str) (attrs : List (Str × Str)) : Parser :=
  match parser.root, parser.curEl with
  | none, _ => { parser with root := some (newElement name attrs), curEl := some [] }
  | some root, some path =>
    { parser.appendChild (.element (newElement name attrs)) with
      elements := path :: parser.elements
      -- the element that was just appended
      curEl := (root.atPath path).map fun el => path ++ [el.children.length] }
  | some _, none => parser -- second root? - should not happen...

/-- `pop` of an empty stack is nil. -/
def Parser.elementEnd (parser : Parser) : Parser :=
  { parser with curEl := parser.elements.head?, elements := parser.elements.tail }

def Parser.characterData (parser : Parser) (s : Str) : Parser :=
  parser.appendChild (.text (some s) .string)

def Parser.callback (parser : Parser) : Event → Parser
  | .start name attrs => parser.elementStart name attrs
  | .stop _ => parser.elementEnd
  | .data text => parser.characterData text

/-- `parseString`, and the root of the document; `parse` is the XML parser, whose callbacks run if it
    accepts the input.  Else there is an exception. -/
def parseString (parse : Str → Option (List Event)) (input : Str) : Option Element :=
  (parse input).bind fun events => (events.foldl Parser.callback Parser.init).root

/-! ## Trees up to texts side by side -/

def addText (text : Str) (nodes : List Node) : List Node :=
  if text = [] then nodes
  else
    match nodes with
    | .text text' _ :: nodes' => .text (some (text ++ text'.getD [])) .string :: nodes'
    | _ => .text (some text) .string :: nodes

def plainAttribute (a : Attribute) : Attribute := { a with type := .string }

mutual

/-- **What XML can say of a tree**: texts side by side are one, an empty text is none, and there are
    no types of values. -/
def Element.joined : Element → Element
  | .mk name attributes children => .mk name (attributes.map plainAttribute) (joinNodes children)

def joinNodes : List Node → List Node
  | [] => []
  | .text text _ :: nodes => addText (text.getD []) (joinNodes nodes)
  | .element el :: nodes => .element el.joined :: joinNodes nodes
  | .comment text before :: nodes => .comment text before :: joinNodes nodes

end

mutual

/-- The events of a tree. -/
def Element.eventsOf : Element → List Event
  | .mk name attributes children =>
    .start name (attributes.map fun a => (a.name, a.value)) ::
      (nodesEvents children ++ [.stop name])

def nodesEvents : List Node → List Event
  | [] => []
  | .text text _ :: nodes => .data (text.getD []) :: nodesEvents nodes
  | .element el :: nodes => el.eventsOf ++ nodesEvents nodes
  | .comment .. :: nodes => nodesEvents nodes

end

/-! ## The open elements -/

/-- An element around the current one, with the children before it. -/
structure Frame where
  name : Str
  attributes : List Attribute
  children : List Node

/-- The tree around an element; the innermost frame first. -/
def plug (el : Element) : List Frame → Element
  | [] => el
  | f :: fs => plug (.mk f.name f.attributes (f.children ++ [.element el])) fs

def pathOf : List Frame → List Nat
  | [] => []
  | f :: fs => pathOf fs ++ [f.children.length]

def stackOf : List Frame → List (List Nat)
  | [] => []
  | _ :: fs => pathOf fs :: stackOf fs

def Element.frame : Element → Frame
  | .mk name attributes children => { name, attributes, children }

/-- What has been built: nothing, a tree that is open at an element, or a whole tree. -/
inductive Built
  | nothing
  | opened (cur : Element) (frames : List Frame)
  | closed (root : Element)

/-- What an event does to it. -/
def Built.step : Built → Event → Built
  | .nothing, .start name attrs => .opened (newElement name attrs) []
  | .nothing, _ => .nothing
  | .opened cur frames, .start name attrs =>
    .opened (newElement name attrs) (cur.frame :: frames)
  | .opened cur frames, .data text => .opened (cur.append (.text (some text) .string)) frames
  | .opened cur [], .stop _ => .closed cur
  | .opened cur (f :: fs), .stop _ =>
    .opened (.mk f.name f.attributes (f.children ++ [.element cur])) fs
  | .closed root, _ => .closed root

/-- **The parser has built this.** -/
inductive Holds : Parser → Built → Prop
  | nothing {others : List Node} :
      Holds { root := none, others, curEl := none, elements := [] } .nothing
  | opened {others : List Node} (cur : Element) (frames : List Frame) :
      Holds { root := some (plug cur frames), others, curEl := some (pathOf frames),
              elements := stackOf frames } (.opened cur frames)
  | closed {others : List Node} (root : Element) :
      Holds { root := some root, others, curEl := none, elements := [] } (.closed root)

section

variable {f : Element → Element} {cur el : Element} {frames : List Frame} {parser : Parser}
  {built : Built}

theorem modifyAt_append (f : Element → Element) : ∀ (p q : List Nat) (el : Element),
    el.modifyAt f (p ++ q) = el.modifyAt (Element.modifyAt f q) p := by
  intro p
  induction p with
  | nil =>
    intro q el
    rfl
  | cons i p ih =>
    intro q el
    obtain ⟨name, attributes, children⟩ := el
    have hsame : Element.modifyAt f (p ++ q) = Element.modifyAt (Element.modifyAt f q) p :=
      funext fun el => ih q el
    rw [List.cons_append, Element.modifyAt, Element.modifyAt, hsame]

theorem modify_last {α : Type} (g : α → α) (x : α) : ∀ l : List α,
    (l ++ [x]).modify l.length g = l ++ [g x] := by
  intro l
  induction l with
  | nil => rfl
  | cons y l ih => exact congrArg (y :: ·) ih

/-- **A path leads to the current element.** -/
theorem modifyAt_plug (f : Element → Element) : ∀ (frames : List Frame) (cur : Element),
    (plug cur frames).modifyAt f (pathOf frames) = plug (f cur) frames := by
  intro frames
  induction frames generalizing f with
  | nil =>
    intro cur
    rfl
  | cons frame frames ih =>
    intro cur
    rw [plug, pathOf, modifyAt_append, ih, plug]
    congr 1
    rw [Element.modifyAt, modify_last]
    rfl

theorem atPath_append : ∀ (p q : List Nat) (el : Element),
    el.atPath (p ++ q) = (el.atPath p).bind (Element.atPath q) := by
  intro p
  induction p with
  | nil =>
    intro q el
    rfl
  | cons i p ih =>
    intro q el
    rw [List.cons_append, Element.atPath, Element.atPath]
    cases el.children[i]? with
    | none => rfl
    | some node =>
      cases node with
      | element child => exact ih q child
      | text text vtype => rfl
      | comment text before => rfl

theorem atPath_plug : ∀ (frames : List Frame) (cur : Element),
    (plug cur frames).atPath (pathOf frames) = some cur := by
  intro frames
  induction frames with
  | nil =>
    intro cur
    rfl
  | cons frame frames ih =>
    intro cur
    rw [plug, pathOf, atPath_append, ih, Option.bind_some, Element.atPath]
    have hlast : (Element.mk frame.name frame.attributes
        (frame.children ++ [.element cur])).children[frame.children.length]? =
          some (.element cur) := by
      show (frame.children ++ [Node.element cur])[frame.children.length]? = _
      rw [List.getElem?_append_right (Nat.le_refl _), Nat.sub_self]
      rfl
    rw [hlast]
    rfl

theorem plug_frame (cur el : Element) (frames : List Frame) :
    plug el (cur.frame :: frames) = plug (cur.append (.element el)) frames := by
  obtain ⟨name, attributes, children⟩ := cur
  rfl

/-- **A callback does to the parser what its event does to the tree.** -/
theorem Holds.callback (h : Holds parser built) (event : Event) :
    Holds (parser.callback event) (built.step event) := by
  cases h with
  | nothing =>
    cases event with
    | start name attrs => exact Holds.opened (newElement name attrs) []
    | stop name => exact Holds.nothing
    | data text => exact Holds.nothing
  | closed root =>
    cases event with
    | start name attrs => exact Holds.closed root
    | stop name => exact Holds.closed root
    | data text => exact Holds.closed root
  | @opened others cur frames =>
    cases event with
    | start name attrs =>
      have hroot := modifyAt_plug (fun el => el.append (.element (newElement name attrs))) frames cur
      rw [← plug_frame] at hroot
      have hpath : pathOf (cur.frame :: frames) = pathOf frames ++ [cur.children.length] := by
        obtain ⟨curName, curAttributes, children⟩ := cur
        rfl
      have hholds := @Holds.opened others (newElement name attrs) (cur.frame :: frames)
      rw [← hroot, hpath] at hholds
      unfold Parser.callback Parser.elementStart
      simp only [atPath_plug, Option.map_some]
      exact hholds
    | data text =>
      have hroot := modifyAt_plug (fun el => el.append (.text (some text) .string)) frames cur
      have hholds := @Holds.opened others (cur.append (.text (some text) .string)) frames
      rw [← hroot] at hholds
      exact hholds
    | stop name =>
      cases frames with
      | nil => exact Holds.closed cur
      | cons f fs => exact Holds.opened (.mk f.name f.attributes (f.children ++ [.element cur])) fs

theorem Holds.callbacks (events : List Event) : ∀ {parser : Parser} {built : Built},
    Holds parser built → Holds (events.foldl Parser.callback parser)
      (events.foldl Built.step built) := by
  induction events with
  | nil =>
    intro parser built h
    exact h
  | cons event events ih =>
    intro parser built h
    exact ih (h.callback event)

/-- The root of the document, if it is whole. -/
theorem Holds.root {root : Element} (h : Holds parser (.closed root)) :
    parser.root = some root := by
  cases h
  rfl

end

/-! ## Joining -/

/-- A node in front of nodes that are joined. -/
def attach : Node → List Node → List Node
  | .text text _, nodes => addText (text.getD []) nodes
  | node, nodes => node :: nodes

section

variable {s t : Str} {xs xs' ys ys' nodes : List Node}

theorem addText_nil (nodes : List Node) : addText [] nodes = nodes := if_pos rfl

/-- Two texts are one. -/
theorem addText_addText (s t : Str) (nodes : List Node) :
    addText s (addText t nodes) = addText (s ++ t) nodes := by
  by_cases hs : s = []
  · rw [hs, addText_nil]
    rfl
  by_cases ht : t = []
  · rw [ht, addText_nil, List.append_nil]
  have hst : s ++ t ≠ [] := List.append_ne_nil_of_left_ne_nil hs t
  unfold addText
  rw [if_neg hs, if_neg ht, if_neg hst]
  cases nodes with
  | nil => rfl
  | cons node nodes =>
    cases node with
    | text text vtype =>
      simp only [Option.getD_some]
      rw [List.append_assoc]
    | element el => rfl
    | comment text before => rfl

theorem foldr_addText (s : Str) (nodes ys : List Node) :
    (addText s nodes).foldr attach ys = addText s (nodes.foldr attach ys) := by
  by_cases hs : s = []
  · rw [hs, addText_nil, addText_nil]
  cases nodes with
  | nil =>
    have hadd : addText s [] = [.text (some s) .string] := if_neg hs
    rw [hadd]
    rfl
  | cons node nodes =>
    cases node with
    | text text vtype =>
      have hadd : addText s (.text text vtype :: nodes) =
          .text (some (s ++ text.getD [])) .string :: nodes := if_neg hs
      rw [hadd, List.foldr_cons, List.foldr_cons]
      exact (addText_addText s (text.getD []) _).symm
    | element el =>
      have hadd : addText s (.element el :: nodes) =
          .text (some s) .string :: .element el :: nodes := if_neg hs
      rw [hadd, List.foldr_cons]
      rfl
    | comment text before =>
      have hadd : addText s (.comment text before :: nodes) =
          .text (some s) .string :: .comment text before :: nodes := if_neg hs
      rw [hadd, List.foldr_cons]
      rfl

theorem joinNodes_append (xs ys : List Node) :
    joinNodes (xs ++ ys) = (joinNodes xs).foldr attach (joinNodes ys) := by
  induction xs with
  | nil => rfl
  | cons node xs ih =>
    rw [List.cons_append]
    cases node with
    | text text vtype => rw [joinNodes, joinNodes, ih, foldr_addText]
    | element el =>
      rw [joinNodes, joinNodes, ih]
      rfl
    | comment text before =>
      rw [joinNodes, joinNodes, ih]
      rfl

theorem joinNodes_congr (hxs : joinNodes xs = joinNodes xs') (hys : joinNodes ys = joinNodes ys') :
    joinNodes (xs ++ ys) = joinNodes (xs' ++ ys') := by
  rw [joinNodes_append, joinNodes_append, hxs, hys]

end

/-! ## The events of a tree build it -/

def Frame.joined (f : Frame) : Frame :=
  { name := f.name, attributes := f.attributes.map plainAttribute, children := joinNodes f.children }

/-- What has been built, up to texts side by side. -/
def Built.joined : Built → Built
  | .nothing => .nothing
  | .opened cur frames => .opened cur.joined (frames.map Frame.joined)
  | .closed root => .closed root.joined

section

variable {cur cur' el el' : Element} {frames frames' : List Frame} {b b' : Built}

theorem joined_append (hcur : cur.joined = cur'.joined) {xs xs' : List Node}
    (hnodes : joinNodes xs = joinNodes xs') :
    (cur.withChildren (cur.children ++ xs)).joined =
      (cur'.withChildren (cur'.children ++ xs')).joined := by
  obtain ⟨name, attributes, children⟩ := cur
  obtain ⟨name', attributes', children'⟩ := cur'
  simp only [Element.joined, Element.mk.injEq] at hcur
  obtain ⟨hname, hattributes, hchildren⟩ := hcur
  show Element.mk name _ (joinNodes (children ++ xs)) =
    Element.mk name' _ (joinNodes (children' ++ xs'))
  rw [hname, hattributes, joinNodes_congr hchildren hnodes]

theorem joined_frame (hcur : cur.joined = cur'.joined) :
    cur.frame.joined = cur'.frame.joined := by
  obtain ⟨name, attributes, children⟩ := cur
  obtain ⟨name', attributes', children'⟩ := cur'
  simp only [Element.joined, Element.mk.injEq] at hcur
  obtain ⟨hname, hattributes, hchildren⟩ := hcur
  show Frame.mk name (attributes.map plainAttribute) (joinNodes children) =
    Frame.mk name' (attributes'.map plainAttribute) (joinNodes children')
  rw [hname, hattributes, hchildren]

/-- What is the same stays the same. -/
theorem step_congr (h : b.joined = b'.joined) (event : Event) :
    (b.step event).joined = (b'.step event).joined := by
  cases b with
  | nothing =>
    cases b' with
    | nothing => rfl
    | opened cur' frames' => cases h
    | closed root' => cases h
  | closed root =>
    cases b' with
    | nothing => cases h
    | opened cur' frames' => cases h
    | closed root' => exact h
  | opened cur frames =>
    cases b' with
    | nothing => cases h
    | closed root' => cases h
    | opened cur' frames' =>
      simp only [Built.joined, Built.opened.injEq] at h
      obtain ⟨hcur, hframes⟩ := h
      cases event with
      | start name attrs =>
        show Built.opened _ (cur.frame.joined :: frames.map Frame.joined) =
          Built.opened _ (cur'.frame.joined :: frames'.map Frame.joined)
        rw [joined_frame hcur, hframes]
      | data text =>
        have hnext := @joined_append cur cur' hcur [.text (some text) .string] _ rfl
        obtain ⟨name, attributes, children⟩ := cur
        obtain ⟨name', attributes', children'⟩ := cur'
        show Built.opened _ (frames.map Frame.joined) = Built.opened _ (frames'.map Frame.joined)
        rw [hframes]
        exact congrArg (fun el => Built.opened el _) hnext
      | stop name =>
        cases frames with
        | nil =>
          cases frames' with
          | nil => exact congrArg Built.closed hcur
          | cons f' fs' => cases hframes
        | cons f fs =>
          cases frames' with
          | nil => cases hframes
          | cons f' fs' =>
            obtain ⟨hf, hfs⟩ := List.cons.inj hframes
            obtain ⟨name, attributes, children⟩ := f
            obtain ⟨name', attributes', children'⟩ := f'
            simp only [Frame.joined, Frame.mk.injEq] at hf
            obtain ⟨hname, hattributes, hchildren⟩ := hf
            have hone : joinNodes [.element cur] = joinNodes [.element cur'] := by
              rw [joinNodes, hcur]
              rfl
            show Built.opened (Element.mk name (attributes.map plainAttribute)
                (joinNodes (children ++ [.element cur]))) (fs.map Frame.joined) =
              Built.opened (Element.mk name' (attributes'.map plainAttribute)
                (joinNodes (children' ++ [.element cur']))) (fs'.map Frame.joined)
            rw [hname, hattributes, joinNodes_congr hchildren hone, hfs]

theorem run_congr (events : List Event) : ∀ {b b' : Built}, b.joined = b'.joined →
    (events.foldl Built.step b).joined = (events.foldl Built.step b').joined := by
  induction events with
  | nil =>
    intro b b' h
    exact h
  | cons event events ih =>
    intro b b' h
    exact ih (step_congr h event)

/-- Data in two pieces. -/
theorem step_data_data (b : Built) (s t : Str) :
    ((b.step (.data s)).step (.data t)).joined = (b.step (.data (s ++ t))).joined := by
  cases b with
  | nothing => rfl
  | closed root => rfl
  | opened cur frames =>
    obtain ⟨name, attributes, children⟩ := cur
    show Built.opened (Element.mk name (attributes.map plainAttribute)
        (joinNodes ((children ++ [.text (some s) .string]) ++ [.text (some t) .string])))
          (frames.map Frame.joined) =
      Built.opened (Element.mk name (attributes.map plainAttribute)
        (joinNodes (children ++ [.text (some (s ++ t)) .string]))) (frames.map Frame.joined)
    have htwo : joinNodes ([.text (some s) .string] ++ [.text (some t) .string]) =
        joinNodes [.text (some (s ++ t)) .string] := addText_addText s t []
    rw [List.append_assoc, joinNodes_congr rfl htwo]

/-- And in none. -/
theorem step_data_nil (b : Built) : (b.step (.data [])).joined = b.joined := by
  cases b with
  | nothing => rfl
  | closed root => rfl
  | opened cur frames =>
    obtain ⟨name, attributes, children⟩ := cur
    show Built.opened (Element.mk name (attributes.map plainAttribute)
        (joinNodes (children ++ [.text (some []) .string]))) (frames.map Frame.joined) =
      Built.opened (Element.mk name (attributes.map plainAttribute) (joinNodes children))
        (frames.map Frame.joined)
    have hnone : joinNodes [.text (some []) .string] = joinNodes [] := rfl
    rw [joinNodes_congr rfl hnone, List.append_nil]

/-- **It does not matter how data is cut.** -/
theorem run_merge : ∀ (events : List Event) {b b' : Built}, b.joined = b'.joined →
    (events.foldl Built.step b).joined = ((merge events).foldl Built.step b').joined := by
  intro events
  induction events with
  | nil =>
    intro b b' h
    exact h
  | cons event events ih =>
    intro b b' h
    cases event with
    | start name attrs => exact ih (step_congr h _)
    | stop name => exact ih (step_congr h _)
    | data s =>
      have hnext := ih (step_congr h (.data s))
      rw [List.foldl_cons, merge]
      by_cases hs : s = []
      · have hadd : addData [] (merge events) = merge events := if_pos rfl
        rw [hs] at hnext ⊢
        rw [hadd]
        exact hnext.trans (run_congr _ (step_data_nil b'))
      · cases hmerge : merge events with
        | nil =>
          rw [hmerge] at hnext
          have hadd : addData s [] = [.data s] := if_neg hs
          rw [hadd]
          exact hnext
        | cons event' rest =>
          rw [hmerge] at hnext
          cases event' with
          | start name attrs =>
            have hadd : addData s (.start name attrs :: rest) =
                .data s :: .start name attrs :: rest := if_neg hs
            rw [hadd]
            exact hnext
          | stop name =>
            have hadd : addData s (.stop name :: rest) = .data s :: .stop name :: rest := if_neg hs
            rw [hadd]
            exact hnext
          | data t =>
            have hadd : addData s (.data t :: rest) = .data (s ++ t) :: rest := if_neg hs
            rw [hadd]
            exact hnext.trans (run_congr rest (step_data_data b' s t))

end

mutual

/-- No comments. -/
def Element.NoComment : Element → Prop
  | .mk _ _ children => NodesNoComment children

def NodesNoComment : List Node → Prop
  | [] => True
  | .text .. :: nodes => NodesNoComment nodes
  | .element el :: nodes => el.NoComment ∧ NodesNoComment nodes
  | .comment .. :: _ => False

end

/-- A name and a value are all that an event says of an attribute. -/
theorem plain_attributes (attributes : List Attribute) :
    ((attributes.map fun a => (a.name, a.value)).map fun attr =>
      ({ name := attr.1, value := attr.2 } : Attribute)).map plainAttribute =
        attributes.map plainAttribute := by
  rw [List.map_map, List.map_map]
  rfl

mutual

/-- **The events of a tree build it**, inside whatever is open. -/
theorem Element.run_eventsOf : ∀ (el : Element), el.NoComment → ∀ (cur : Element)
    (frames : List Frame), (el.eventsOf.foldl Built.step (.opened cur frames)).joined =
      (Built.opened (cur.append (.element el)) frames).joined
  | .mk name attributes children => by
    intro hcomment cur frames
    have hchildren := run_nodesEvents children hcomment
      (newElement name (attributes.map fun a => (a.name, a.value))) (cur.frame :: frames)
    rw [Element.eventsOf, List.foldl_cons, List.foldl_append]
    show (Built.step (List.foldl Built.step (.opened (newElement name _) (cur.frame :: frames))
      (nodesEvents children)) (.stop name)).joined = _
    rw [step_congr hchildren (.stop name)]
    obtain ⟨curName, curAttributes, curChildren⟩ := cur
    show Built.opened (Element.mk curName (curAttributes.map plainAttribute)
        (joinNodes (curChildren ++ [.element (.mk name
          ((attributes.map fun a => (a.name, a.value)).map fun attr =>
            ({ name := attr.1, value := attr.2 } : Attribute)) ([] ++ children))])))
          (frames.map Frame.joined) =
      Built.opened (Element.mk curName (curAttributes.map plainAttribute)
        (joinNodes (curChildren ++ [.element (.mk name attributes children)])))
          (frames.map Frame.joined)
    have hone : joinNodes [.element (.mk name ((attributes.map fun a => (a.name, a.value)).map
        fun attr => ({ name := attr.1, value := attr.2 } : Attribute)) ([] ++ children))] =
          joinNodes [.element (.mk name attributes children)] := by
      show [Node.element (.mk name (((attributes.map fun a => (a.name, a.value)).map fun attr =>
        ({ name := attr.1, value := attr.2 } : Attribute)).map plainAttribute)
          (joinNodes children))] =
        [Node.element (.mk name (attributes.map plainAttribute) (joinNodes children))]
      rw [plain_attributes]
    rw [joinNodes_congr rfl hone]

theorem run_nodesEvents : ∀ (nodes : List Node), NodesNoComment nodes → ∀ (cur : Element)
    (frames : List Frame), ((nodesEvents nodes).foldl Built.step (.opened cur frames)).joined =
      (Built.opened (cur.withChildren (cur.children ++ nodes)) frames).joined
  | [] => by
    intro hcomment cur frames
    rw [List.append_nil, withChildren_children]
    rfl
  | .text text vtype :: nodes => by
    intro hcomment cur frames
    rw [nodesEvents, List.foldl_cons]
    have hnext := run_nodesEvents nodes hcomment (cur.append (.text (some (text.getD [])) .string))
      frames
    refine hnext.trans ?_
    obtain ⟨name, attributes, children⟩ := cur
    show Built.opened (Element.mk name (attributes.map plainAttribute)
        (joinNodes ((children ++ [.text (some (text.getD [])) .string]) ++ nodes)))
          (frames.map Frame.joined) =
      Built.opened (Element.mk name (attributes.map plainAttribute)
        (joinNodes (children ++ .text text vtype :: nodes))) (frames.map Frame.joined)
    have hsame : joinNodes ([.text (some (text.getD [])) .string] ++ nodes) =
        joinNodes (.text text vtype :: nodes) := by
      rw [List.singleton_append, joinNodes, joinNodes, Option.getD_some]
    rw [List.append_assoc, joinNodes_congr rfl hsame]
  | .element el :: nodes => by
    rintro ⟨hel, hnodes⟩ cur frames
    rw [nodesEvents, List.foldl_append]
    have hone := el.run_eventsOf hel cur frames
    rw [run_congr _ hone, run_nodesEvents nodes hnodes]
    obtain ⟨name, attributes, children⟩ := cur
    show Built.opened (Element.mk name _ (joinNodes ((children ++ [.element el]) ++ nodes))) _ = _
    rw [List.append_assoc]
    rfl
  | .comment text before :: nodes => fun h => h.elim

end

/-- From the beginning they build the whole tree. -/
theorem run_document (el : Element) (hcomment : el.NoComment) :
    (el.eventsOf.foldl Built.step .nothing).joined = .closed el.joined := by
  obtain ⟨name, attributes, children⟩ := el
  have hchildren := run_nodesEvents children hcomment
    (newElement name (attributes.map fun a => (a.name, a.value))) []
  rw [Element.eventsOf, List.foldl_cons, List.foldl_append]
  show (Built.step (List.foldl Built.step (.opened (newElement name _) [])
    (nodesEvents children)) (.stop name)).joined = _
  rw [step_congr hchildren (.stop name)]
  show Built.closed (.mk name (((attributes.map fun a => (a.name, a.value)).map fun attr =>
      ({ name := attr.1, value := attr.2 } : Attribute)).map plainAttribute)
        (joinNodes children)) =
    Built.closed (.mk name (attributes.map plainAttribute) (joinNodes children))
  rw [plain_attributes]

/-- **What the callbacks make of the events of a tree**, with the data in any pieces. -/
theorem callbacks_merge {el : Element} (hcomment : el.NoComment) {got : List Event}
    (hgot : merge got = merge el.eventsOf) :
    ∃ root, (got.foldl Parser.callback Parser.init).root = some root ∧
      root.joined = el.joined := by
  have hbuilt : (got.foldl Built.step .nothing).joined = .closed el.joined := by
    rw [run_merge got rfl, hgot, ← run_merge el.eventsOf rfl, run_document el hcomment]
  have hholds := (@Holds.nothing []).callbacks got
  cases hclosed : got.foldl Built.step .nothing with
  | nothing =>
    rw [hclosed] at hbuilt
    cases hbuilt
  | opened cur frames =>
    rw [hclosed] at hbuilt
    cases hbuilt
  | closed root =>
    rw [hclosed] at hbuilt hholds
    exact ⟨root, hholds.root, Built.closed.inj hbuilt⟩

end MediaTomb.Mxml
