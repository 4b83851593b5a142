import FloodGuard.FlowSpec.Rule
import FloodGuard.Proofs.NetworkText

/-!
A rule is read back from its text, so two rules never share a text. The text is two blocks in
braces, one of conditions and one with the action, and a block is a list of statements that end with
a semicolon. A statement is a keyword and, behind a blank, what it is about. No keyword, network,
number or label holds a sign that ends something, so each cut is made where the text was put
together; and no two kinds of conditions share a keyword, so each is found where it was listed.
-/
namespace FloodGuard

open Numeral Text

namespace Action

/-- The text of an action without its semicolon. -/
def statement : Action → List Char
  | .accept => "accept".toList
  | .discard => "discard".toList
  | .rateLimit rate => "rate-limit".toList ++ ' ' :: write 10 rate.toNat

/-- Reads an action from its statement. -/
def ofStatement? (statement : List Char) : Option Action :=
  let parts := cut ' ' statement
  if parts.1 = "accept".toList then some .accept
  else if parts.1 = "discard".toList then some .discard
  else (parts.2.bind (value? 10)).map fun rate => .rateLimit (UInt64.ofNat rate)

end Action

namespace Rule

/-- The text between the first two braces, and the text behind them. -/
def braced (text : List Char) : List Char × List Char :=
  let inside := cut '\x7d' ((cut '\x7b' text).2.getD [])
  (inside.1, inside.2.getD [])

/-- Statements as they stand between braces. -/
def block (statements : List (List Char)) : List Char :=
  ' ' :: (joinWith [' '] (statements.map (· ++ [';'])) ++ [' '])

/-- The statements that stand between braces. -/
def statements (block : List Char) : List (List Char) := (pieces ';' block).dropLast.map List.tail

/-- What the statement with a keyword is about, if there is one. -/
def argument? (statements : List (List Char)) (keyword : String) : Option (List Char) :=
  statements.findSome? fun statement =>
    match cut ' ' statement with
    | (word, some argument) => if word = keyword.toList then some argument else none
    | (_, none) => none

/-- Items between brackets; there is no such text for no items. -/
def bracketed? (items : List (List Char)) : Option (List Char) :=
  if items = [] then none else some ("[ ".toList ++ joinWith [' '] items ++ " ]".toList)

/-- The items between brackets. -/
def unbracketed (text : List Char) : List (List Char) := (pieces ' ' text).tail.dropLast

/-- What the rule says about each keyword, in the order of the text. -/
def arguments (r : Rule) : List (String × Option (List Char)) :=
  [("source", r.source.map fun n => n.text.toList),
    ("destination", r.destination.map fun n => n.text.toList),
    ("protocol", bracketed? (labels r.protocols)),
    ("source-port", bracketed? (ports r.sourcePorts)),
    ("destination-port", bracketed? (ports r.destinationPorts)),
    ("fragment", bracketed? (labels r.fragmentation))]

/-- The statement about a keyword, where there is something to say. -/
def statement (entry : String × Option (List Char)) : List (List Char) :=
  entry.2.toList.map fun argument => entry.1.toList ++ ' ' :: argument

/-- Reads the network of a condition; without the condition there is none. -/
def network? (argument : Option (List Char)) : Option (Option Network) :=
  match argument with
  | some text => (Network.ofChars text).toOption.map some
  | none => some none

/-- Reads the items that a condition lists; without the condition there are none. -/
def items? {α : Type} (read : List Char → Option α) (argument : Option (List Char)) :
    Option (List α) :=
  match argument with
  | some text => (unbracketed text).mapM read
  | none => some []

def label? {α : Type} [Labelled α] (item : List Char) : Option α := ofLabel? (String.ofList item)

/-- Reads a port behind its sign. -/
def port? (item : List Char) : Option UInt16 := (value? 10 item.tail).map UInt16.ofNat

/-- Reads a rule from its text. -/
def ofChars? (text : List Char) : Option Rule := do
  let conditions := argument? (statements (braced text).1)
  let action ← (statements (braced (braced text).2).1).head?
  some
    { source := ← network? (conditions "source")
      destination := ← network? (conditions "destination")
      protocols := ← items? label? (conditions "protocol")
      sourcePorts := ← items? port? (conditions "source-port")
      destinationPorts := ← items? port? (conditions "destination-port")
      fragmentation := ← items? label? (conditions "fragment")
      action := ← Action.ofStatement? action }

theorem braced_append {before inside : List Char} (hbefore : '\x7b' ∉ before)
    (hinside : '\x7d' ∉ inside) (after : List Char) :
    braced (before ++ '\x7b' :: (inside ++ '\x7d' :: after)) = (inside, after) := by
  simp only [braced, cut_append '\x7b' _ _ hbefore, Option.getD_some, cut_append '\x7d' _ _ hinside]

theorem statements_of_not_mem {text : List Char} (h : ';' ∉ text) : statements text = [] := by
  rw [statements, pieces_of_not_mem ';' text h]
  rfl

theorem statements_append {first : List Char} (h : ';' ∉ first) (rest : List Char) :
    statements (' ' :: (first ++ ';' :: rest)) = first :: statements rest := by
  have hfront : ';' ∉ ' ' :: first := by
    rw [List.mem_cons, not_or]
    exact ⟨by decide, h⟩
  have hcut := pieces_append ';' (' ' :: first) rest hfront
  rw [List.cons_append] at hcut
  rw [statements, hcut, List.dropLast_cons_of_ne_nil (pieces_ne_nil ';' rest), List.map_cons,
    List.tail_cons, statements]

/-- The statements of a block are found again. -/
theorem statements_block {all : List (List Char)} (h : ∀ one ∈ all, ';' ∉ one) :
    statements (block all) = all := by
  induction all with
  | nil => exact statements_of_not_mem (by decide)
  | cons first others ih =>
    have hfirst := h first List.mem_cons_self
    have hothers := ih fun one hone => h one (List.mem_cons_of_mem first hone)
    cases others with
    | nil =>
      have hend : ';' ∉ [' '] := by decide
      simp only [block, List.map_cons, List.map_nil, joinWith, List.append_assoc,
        List.singleton_append]
      rw [statements_append hfirst, statements_of_not_mem hend]
    | cons second more =>
      simp only [block, List.map_cons, joinWith, List.append_assoc, List.cons_append,
        List.nil_append] at hothers ⊢
      rw [statements_append hfirst, hothers]

/-- The items between brackets are found again. -/
theorem unbracketed_joinWith {items : List (List Char)} (hne : items ≠ [])
    (h : ∀ item ∈ items, ' ' ∉ item) :
    unbracketed ("[ ".toList ++ joinWith [' '] items ++ " ]".toList) = items := by
  have hparts : "[ ".toList ++ joinWith [' '] items ++ " ]".toList =
      joinWith [' '] (['['] :: (items ++ [[']']])) := by
    cases items with
    | nil => exact absurd rfl hne
    | cons first others =>
      rw [List.cons_append, joinWith, ← List.cons_append, joinWith_concat [' '] hne [']'],
        List.append_assoc, List.append_assoc]
      rfl
  have hplain : ∀ part ∈ ['['] :: (items ++ [[']']]), ' ' ∉ part := by
    intro part hpart
    rcases List.mem_cons.1 hpart with rfl | hlater
    · decide
    · rcases List.mem_append.1 hlater with hitem | hlast
      · exact h part hitem
      · rw [List.mem_singleton.1 hlast]
        decide
  rw [hparts, unbracketed, pieces_joinWith ' ' _ (by simp) hplain, List.tail_cons,
    List.dropLast_concat]

theorem argument?_append (front back : List (List Char)) (keyword : String) :
    argument? (front ++ back) keyword =
      (argument? front keyword).or (argument? back keyword) :=
  List.findSome?_append

theorem argument?_statement {word : String} (h : ' ' ∉ word.toList)
    (argument : Option (List Char)) (keyword : String) :
    argument? (statement (word, argument)) keyword = if word = keyword then argument else none := by
  cases argument with
  | none => simp [statement, argument?]
  | some text => simp [statement, argument?, cut_append ' ' _ _ h, String.toList_inj]

theorem argument?_of_notMem {entries : List (String × Option (List Char))}
    (hplain : ∀ entry ∈ entries, ' ' ∉ entry.1.toList) {keyword : String}
    (h : keyword ∉ entries.map Prod.fst) :
    argument? (entries.flatMap statement) keyword = none := by
  induction entries with
  | nil => rfl
  | cons entry others ih =>
    rw [List.map_cons, List.mem_cons, not_or] at h
    have hother := ih (fun e he => hplain e (List.mem_cons_of_mem entry he)) h.2
    rw [List.flatMap_cons, argument?_append, hother,
      argument?_statement (hplain entry List.mem_cons_self) entry.2, if_neg (Ne.symm h.1),
      Option.none_or]

/-- Where each keyword stands once, what it is about is found again. -/
theorem argument?_flatMap {entries : List (String × Option (List Char))}
    (hplain : ∀ entry ∈ entries, ' ' ∉ entry.1.toList) (hnodup : (entries.map Prod.fst).Nodup)
    {entry : String × Option (List Char)} (hmem : entry ∈ entries) :
    argument? (entries.flatMap statement) entry.1 = entry.2 := by
  obtain ⟨front, back, rfl⟩ := List.append_of_mem hmem
  have hback : ∀ e ∈ back, ' ' ∉ e.1.toList := fun e he => hplain e (by simp [he])
  have hfront : ∀ e ∈ front, ' ' ∉ e.1.toList := fun e he => hplain e (by simp [he])
  rw [List.map_append, List.map_cons, List.nodup_append, List.nodup_cons] at hnodup
  obtain ⟨-, ⟨hlater, -⟩, hdistinct⟩ := hnodup
  have hearlier : entry.1 ∉ front.map Prod.fst := fun h =>
    hdistinct entry.1 h entry.1 List.mem_cons_self rfl
  rw [List.flatMap_append, List.flatMap_cons, argument?_append, argument?_append,
    argument?_of_notMem hfront hearlier, argument?_of_notMem hback hlater,
    argument?_statement (hplain entry hmem) entry.2, if_pos rfl, Option.none_or, Option.or_none]

/-- Whether a text holds no sign that ends a statement or a block. -/
def IsPlain (text : List Char) : Prop := ';' ∉ text ∧ '\x7d' ∉ text

instance (text : List Char) : Decidable (IsPlain text) :=
  inferInstanceAs (Decidable (_ ∧ _))

theorem isPlain_append {front back : List Char} (hfront : IsPlain front) (hback : IsPlain back) :
    IsPlain (front ++ back) := by
  refine ⟨?_, ?_⟩
  · rw [List.mem_append, not_or]
    exact ⟨hfront.1, hback.1⟩
  · rw [List.mem_append, not_or]
    exact ⟨hfront.2, hback.2⟩

theorem isPlain_joinWith {separator : List Char} {parts : List (List Char)}
    (hseparator : IsPlain separator) (hparts : ∀ part ∈ parts, IsPlain part) :
    IsPlain (joinWith separator parts) :=
  ⟨not_mem_joinWith hseparator.1 fun part hpart => (hparts part hpart).1,
    not_mem_joinWith hseparator.2 fun part hpart => (hparts part hpart).2⟩

theorem isPlain_write (n : Nat) : IsPlain (write 10 n) :=
  ⟨not_mem_write (by decide) (by decide) (by decide),
    not_mem_write (by decide) (by decide) (by decide)⟩

theorem isPlain_chars (a : Address) : IsPlain a.chars := by
  have hsign : ∀ {c : Char}, Address.IsSign c → c ≠ ';' ∧ c ≠ '\x7d' := fun hc =>
    hc.imp (p := fun c => c ≠ ';' ∧ c ≠ '\x7d') (by decide) (by decide) (by decide)
  exact ⟨fun h => (hsign (Address.isSign_of_mem_chars h)).1 rfl,
    fun h => (hsign (Address.isSign_of_mem_chars h)).2 rfl⟩

theorem isPlain_text (n : Network) : IsPlain n.text.toList := by
  have hslash : IsPlain ['/'] := by decide
  rw [Network.text, Network.toList_slash]
  exact isPlain_append (isPlain_chars n.address) (isPlain_append hslash (isPlain_write n.length))

/-- Whether a text can stand between brackets. -/
def IsItem (text : List Char) : Prop := ' ' ∉ text ∧ IsPlain text

instance (text : List Char) : Decidable (IsItem text) := inferInstanceAs (Decidable (_ ∧ _))

theorem isItem_transport (x : Transport) : IsItem (label x).toList := by
  cases x <;> decide

theorem isItem_fragmentation (x : Fragmentation) : IsItem (label x).toList := by
  cases x <;> decide

theorem isItem_port (port : UInt16) : IsItem ('=' :: write 10 port.toNat) := by
  have hsign : IsPlain ['='] := by decide
  refine ⟨?_, isPlain_append hsign (isPlain_write port.toNat)⟩
  rw [List.mem_cons, not_or]
  exact ⟨by decide, not_mem_write (by decide) (by decide) (by decide)⟩

theorem isPlain_of_bracketed? {α : Type} {write : α → List Char} (h : ∀ x, IsItem (write x))
    (items : List α) {text : List Char} (htext : bracketed? (items.map write) = some text) :
    IsPlain text := by
  have hitems : ∀ item ∈ items.map write, IsPlain item := by
    simp only [List.forall_mem_map]
    exact fun x _ => (h x).2
  rw [bracketed?] at htext
  split at htext
  · cases htext
  · cases htext
    have hjoined := isPlain_joinWith (by decide : IsPlain [' ']) hitems
    exact isPlain_append (isPlain_append (by decide) hjoined) (by decide)

theorem isPlain_of_network {n : Option Network} {text : List Char}
    (htext : (n.map fun n => n.text.toList) = some text) : IsPlain text := by
  obtain ⟨m, -, rfl⟩ := Option.map_eq_some_iff.1 htext
  exact isPlain_text m

/-- What the rule says is written with plain signs. -/
theorem isPlain_arguments (r : Rule) :
    ∀ entry ∈ r.arguments, ∀ text, entry.2 = some text → IsPlain text := by
  simp only [arguments, List.forall_mem_cons]
  exact ⟨fun _ => isPlain_of_network, fun _ => isPlain_of_network,
    fun _ => isPlain_of_bracketed? isItem_transport r.protocols,
    fun _ => isPlain_of_bracketed? isItem_port r.sourcePorts,
    fun _ => isPlain_of_bracketed? isItem_port r.destinationPorts,
    fun _ => isPlain_of_bracketed? isItem_fragmentation r.fragmentation, List.forall_mem_nil _⟩

theorem keywords_arguments (r : Rule) : r.arguments.map Prod.fst =
    ["source", "destination", "protocol", "source-port", "destination-port", "fragment"] := rfl

/-- No two kinds of conditions share a keyword, and keywords are plain and without blanks. -/
theorem keywords_plain (r : Rule) :
    (r.arguments.map Prod.fst).Nodup ∧ ∀ entry ∈ r.arguments, IsItem entry.1.toList := by
  have hall : ∀ word ∈ r.arguments.map Prod.fst, IsItem word.toList := by
    rw [keywords_arguments]
    decide
  refine ⟨?_, fun entry he => hall entry.1 (List.mem_map_of_mem he)⟩
  rw [keywords_arguments]
  decide

/-- The conditions of a rule as statements. -/
def conditions (r : Rule) : List (List Char) := r.arguments.flatMap statement

theorem isPlain_conditions (r : Rule) : ∀ one ∈ r.conditions, IsPlain one := by
  intro one hone
  obtain ⟨entry, hentry, hstatement⟩ := List.mem_flatMap.1 hone
  obtain ⟨text, htext, rfl⟩ := List.mem_map.1 hstatement
  have hblank : IsPlain [' '] := by decide
  refine isPlain_append ((keywords_plain r).2 entry hentry).2 (isPlain_append hblank ?_)
  exact isPlain_arguments r entry hentry text (by simpa using htext)

theorem argument?_conditions (r : Rule) :
    ∀ entry ∈ r.arguments, argument? r.conditions entry.1 = entry.2 := fun _ hentry =>
  argument?_flatMap (fun e he => ((keywords_plain r).2 e he).1) (keywords_plain r).1 hentry

theorem brace_not_mem_block {all : List (List Char)} (h : ∀ one ∈ all, IsPlain one) :
    '\x7d' ∉ block all := by
  have hjoined : '\x7d' ∉ joinWith [' '] (all.map (· ++ [';'])) := by
    refine not_mem_joinWith (by decide) ?_
    simp only [List.forall_mem_map, List.mem_append, not_or]
    exact fun one hone => ⟨(h one hone).2, by decide⟩
  rw [block, List.mem_cons, List.mem_append, not_or, not_or]
  exact ⟨by decide, hjoined, by decide⟩

theorem network?_text (n : Option Network) :
    network? (n.map fun n => n.text.toList) = some n := by
  cases n with
  | none => rfl
  | some m =>
    simp only [network?, Option.map_some, Network.ofChars_text, Except.toOption]

theorem items?_bracketed? {α : Type} {read : List Char → Option α} {write : α → List Char}
    (hread : ∀ x, read (write x) = some x) (hitem : ∀ x, IsItem (write x)) (items : List α) :
    items? read (bracketed? (items.map write)) = some items := by
  by_cases hnil : items = []
  · subst hnil
    rfl
  · have hne : items.map write ≠ [] := by simpa using hnil
    have hblank : ∀ item ∈ items.map write, ' ' ∉ item := by
      simp only [List.forall_mem_map]
      exact fun x _ => (hitem x).1
    rw [bracketed?, if_neg hne]
    simp only [items?, unbracketed_joinWith hne hblank, Address.mapM_map_eq_some fun x _ => hread x]

theorem label?_label {α : Type} [Labelled α] (h : ∀ x : α, ofLabel? (label x) = some x) (x : α) :
    label? (label x).toList = some x := by
  rw [label?, String.ofList_toList, h]

theorem ofLabel?_transport (x : Transport) : ofLabel? (label x) = some x := by
  cases x <;> rfl

theorem ofLabel?_fragmentation (x : Fragmentation) : ofLabel? (label x) = some x := by
  cases x <;> rfl

theorem port?_write (port : UInt16) : port? ('=' :: write 10 port.toNat) = some port := by
  rw [port?, List.tail_cons, value?_write 10 _ (by decide) (by decide), Option.map_some,
    UInt16.ofNat_toNat]

end Rule

namespace Action

theorem chars_eq (a : Action) : a.chars = a.statement ++ [';'] := by
  cases a with
  | accept => rfl
  | discard => rfl
  | rateLimit rate =>
    have hfront : "rate-limit ".toList = "rate-limit".toList ++ [' '] := rfl
    show "rate-limit ".toList ++ write 10 rate.toNat ++ [';'] = _
    rw [hfront, ← List.append_cons]
    rfl

theorem isPlain_statement (a : Action) : Rule.IsPlain a.statement := by
  cases a with
  | accept => decide
  | discard => decide
  | rateLimit rate =>
    have hfront : Rule.IsPlain ("rate-limit".toList ++ [' ']) := by decide
    show Rule.IsPlain ("rate-limit".toList ++ ' ' :: write 10 rate.toNat)
    rw [List.append_cons]
    exact Rule.isPlain_append hfront (Rule.isPlain_write rate.toNat)

theorem ofStatement?_statement (a : Action) : ofStatement? a.statement = some a := by
  have hdiscard : "discard".toList ≠ "accept".toList := String.toList_inj.not.2 (by decide)
  have hlimit : "rate-limit".toList ≠ "accept".toList ∧ "rate-limit".toList ≠ "discard".toList :=
    ⟨String.toList_inj.not.2 (by decide), String.toList_inj.not.2 (by decide)⟩
  cases a with
  | accept =>
    have hcut : cut ' ' (statement .accept) = ("accept".toList, none) :=
      cut_of_not_mem ' ' _ (by decide)
    rw [ofStatement?, hcut]
    exact if_pos rfl
  | discard =>
    have hcut : cut ' ' (statement .discard) = ("discard".toList, none) :=
      cut_of_not_mem ' ' _ (by decide)
    rw [ofStatement?, hcut]
    exact (if_neg hdiscard).trans (if_pos rfl)
  | rateLimit rate =>
    have hcut : cut ' ' (statement (.rateLimit rate)) =
        ("rate-limit".toList, some (write 10 rate.toNat)) := cut_append ' ' _ _ (by decide)
    have hread : value? 10 (write 10 rate.toNat) = some rate.toNat :=
      value?_write 10 _ (by decide) (by decide)
    simp only [ofStatement?, hcut, if_neg hlimit.1, if_neg hlimit.2, Option.bind_some, hread,
      Option.map_some, UInt64.ofNat_toNat]

end Action

namespace Rule

theorem networkClause_eq (keyword : String) (n : Option Network) :
    networkClause keyword n =
      (statement (keyword, n.map fun n => n.text.toList)).map (· ++ [';']) := by
  cases n with
  | none => rfl
  | some m => simp [networkClause, statement]

theorem listClause_eq (keyword : String) (items : List (List Char)) :
    listClause keyword items = (statement (keyword, bracketed? items)).map (· ++ [';']) := by
  cases items with
  | nil => rfl
  | cons first others =>
    have hopen : " [ ".toList = ' ' :: "[ ".toList := rfl
    have hclose : " ];".toList = " ]".toList ++ [';'] := rfl
    have hsome : bracketed? (first :: others) =
        some ("[ ".toList ++ joinWith [' '] (first :: others) ++ " ]".toList) := if_neg (by simp)
    show [keyword.toList ++ " [ ".toList ++ joinWith [' '] (first :: others) ++ " ];".toList] = _
    rw [hsome, hopen, hclose]
    simp [statement]

theorem clauses_eq (r : Rule) : r.clauses = r.conditions.map (· ++ [';']) := by
  simp only [clauses, networkClause_eq, listClause_eq, conditions, arguments, List.flatMap_cons,
    List.flatMap_nil, List.append_nil, List.map_append, List.append_assoc]

/-- The text of a rule is made of two blocks. -/
theorem chars_eq (r : Rule) :
    r.chars = "match ".toList ++ '\x7b' :: (block r.conditions ++ '\x7d' ::
      (" then ".toList ++ '\x7b' :: (block [r.action.statement] ++ ['\x7d']))) := by
  have hfront : "match \x7b ".toList = "match ".toList ++ ['\x7b', ' '] := rfl
  have hmiddle : " \x7d then \x7b ".toList =
      [' ', '\x7d'] ++ " then ".toList ++ ['\x7b', ' '] := rfl
  have hback : " \x7d".toList = [' ', '\x7d'] := rfl
  unfold chars
  rw [matchChars, clauses_eq, Action.chars_eq, hfront, hmiddle, hback]
  simp only [block, List.map_cons, List.map_nil, joinWith, List.append_assoc, List.cons_append,
    List.nil_append]

theorem braced_chars (r : Rule) :
    braced r.chars = (block r.conditions,
      " then ".toList ++ '\x7b' :: (block [r.action.statement] ++ ['\x7d'])) := by
  rw [chars_eq]
  exact braced_append (by decide) (brace_not_mem_block r.isPlain_conditions) _

/-- The first block of the text holds the conditions. -/
theorem statements_conditions (r : Rule) : statements (braced r.chars).1 = r.conditions := by
  rw [braced_chars]
  exact statements_block fun one hone => (r.isPlain_conditions one hone).1

/-- The second block of the text holds the action. -/
theorem statements_action (r : Rule) :
    statements (braced (braced r.chars).2).1 = [r.action.statement] := by
  have hplain : ∀ one ∈ [r.action.statement], IsPlain one := by
    simp [r.action.isPlain_statement]
  rw [braced_chars, braced_append (by decide) (brace_not_mem_block hplain) []]
  exact statements_block fun one hone => (hplain one hone).1

/-- A rule is read back from its text. -/
theorem ofChars?_chars (r : Rule) : ofChars? r.chars = some r := by
  have harguments := argument?_conditions r
  simp only [arguments, List.forall_mem_cons] at harguments
  obtain ⟨hsource, hdestination, hprotocol, hsourcePort, hdestinationPort, hfragment, -⟩ :=
    harguments
  have hprotocols : items? label? (bracketed? (labels r.protocols)) = some r.protocols :=
    items?_bracketed? (label?_label ofLabel?_transport) isItem_transport _
  have hfragments : items? label? (bracketed? (labels r.fragmentation)) = some r.fragmentation :=
    items?_bracketed? (label?_label ofLabel?_fragmentation) isItem_fragmentation _
  have hports : ∀ items, items? port? (bracketed? (ports items)) = some items :=
    items?_bracketed? port?_write isItem_port
  simp only [ofChars?, statements_conditions, statements_action, hsource, hdestination, hprotocol,
    hsourcePort, hdestinationPort, hfragment, network?_text, hprotocols, hfragments, hports,
    List.head?_cons, Action.ofStatement?_statement, Option.bind_eq_bind, Option.bind_some]

/-- The text of a rule identifies it: rules that differ in anything have different texts. -/
theorem text_eq_iff (r s : Rule) : r.text = s.text ↔ r = s := by
  constructor
  · intro h
    have hchars : r.chars = s.chars := String.ofList_inj.1 h
    have hread : ofChars? r.chars = ofChars? s.chars := by rw [hchars]
    rw [ofChars?_chars, ofChars?_chars] at hread
    exact Option.some.inj hread
  · exact congrArg text

end Rule

end FloodGuard
