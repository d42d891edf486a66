import Rocket.InterfaceNames
import Rocket.Lib.TextSearch

set_option autoImplicit false

namespace Rocket

open TextSearch (Borderless)

-- str.find, which gives -1 when there is no occurrence.
def textFind (pattern text : Text) : Int :=
  match TextSearch.find pattern text with
  | some index => index
  | none => -1

-- The bounds of a slice may lie outside of the text, and negative ones count
-- from its end.
def sliceBound (text : Text) (bound : Int) : Nat := (if bound < 0 then bound + text.length else bound).toNat

def textSlice (text : Text) (first last : Int) : Text := (text.take (sliceBound text last)).drop (sliceBound text first)

def sliceFrom (text : Text) (first : Int) : Text := text.drop (sliceBound text first)

-- The name of the service, and the text from the parenthesis behind it on.
def scanService (originText : Text) : Text × Text :=
  let start := textFind "virtual ~".toList originText
  let i1 := textFind "~".toList (sliceFrom originText start)
  let i2 := textFind "(".toList (sliceFrom originText start)
  (textSlice originText (start + i1 + 1) (start + i2), sliceFrom originText (start + i2))

theorem find_lower (pattern text : Text) : -1 ≤ textFind pattern text := by
  rw [textFind]
  split <;> omega

theorem method_list_shorter (originText : Text) (found : textFind "virtual void".toList originText ≠ -1) (i2 : Int) (lower : -1 ≤ i2) :
    (sliceFrom originText (textFind "virtual void".toList originText + i2 + 3)).length < originText.length := by
  have positive := find_lower "virtual void".toList originText
  have nonempty : originText ≠ [] := by
    rintro rfl
    exact found rfl
  have long := List.length_pos_iff.mpr nonempty
  rw [sliceFrom, sliceBound, if_neg (by omega), List.length_drop]
  omega

def methodList (originText : Text) : List Text :=
  if found : textFind "virtual void".toList originText ≠ -1 then
    let i1 := textFind "virtual void".toList originText
    let i2 := textFind ");".toList (sliceFrom originText i1)
    textSlice originText i1 (i1 + i2 + 2) :: methodList (sliceFrom originText (i1 + i2 + 3))
  else []
termination_by originText.length
decreasing_by exact method_list_shorter originText found _ (find_lower _ _)

-- An entry of interface_list with the text of the method in server.cpp.
structure GeneratedMethod where
  entry : InterfaceEntry
  requestType : Text
  responseType : Text
  definition : Text
deriving DecidableEq, Repr

def removeAll (old text : Text) : Text := TextSearch.replace old [] text

def requestTypeOf (argument : Text) : Text :=
  let y := textFind "request".toList argument
  removeAll " ".toList (removeAll "\n".toList (removeAll "const ".toList (removeAll "*".toList (textSlice argument 0 (y - 1)))))

def responseTypeOf (argument : Text) : Text :=
  let y := textFind "response".toList argument
  removeAll " ".toList (removeAll "\n".toList (removeAll "*".toList (textSlice argument 0 (y - 1))))

-- An index outside of the list of arguments raises an exception.
def parseMethod (className each : Text) : Option GeneratedMethod := do
  let replaced := TextSearch.replace "PROTOBUF_NAMESPACE_ID".toList "google::protobuf".toList each
  let tmp := sliceFrom replaced (textFind "void".toList replaced)
  let entry := interfaceEntry (textSlice tmp 5 (textFind "(".toList tmp))
  let l := tmp.splitOn ','
  let request ← l[1]?
  let response ← l[2]?
  let named := textSlice tmp 0 5 ++ className ++ "::".toList ++ sliceFrom tmp 5
  some {
    entry
    requestType := requestTypeOf request
    responseType := responseTypeOf response
    definition := textSlice named 0 (-1) ++ "\x7b\n\n  ".toList ++ "CALL_RPC_INTERFACE(".toList ++ entry.interfaceClassName ++
      ");\n\x7d".toList }

def parseHeader (originText : Text) : Option (Text × List GeneratedMethod) := do
  let (serviceName, rest) := scanService originText
  let methods ← (methodList rest).mapM (parseMethod (toCamel serviceName ++ "Impl".toList))
  some (serviceName, methods)

structure ProtoMethod where
  name : Text
  request : Text
  response : Text
deriving DecidableEq, Repr

def requestArgument (method : ProtoMethod) : Text :=
  "\n                       const ::".toList ++ (method.request ++ "* request".toList)

def responseArgument (method : ProtoMethod) : Text :=
  "\n                       ::".toList ++ (method.response ++ "* response".toList)

-- The declaration of a method up to the closing parenthesis.
def signature (namespaceId : Text) (method : ProtoMethod) : Text :=
  "void ".toList ++ (method.name ++ ("(::".toList ++ (namespaceId ++ ("::RpcController* controller".toList ++
    (',' :: (requestArgument method ++ (',' :: (responseArgument method ++
      (',' :: "\n                       ::google::protobuf::Closure* done".toList))))))))) 

def methodText (method : ProtoMethod) : Text :=
  "virtual ".toList ++ (signature "PROTOBUF_NAMESPACE_ID".toList method ++ ");".toList)

def methodsText : List ProtoMethod → Text → Text
  | [], closing => closing
  | method :: methods, closing => "  ".toList ++ (methodText method ++ ('\n' :: methodsText methods closing))

-- The class of a service in a header that protoc has written. opening is what
-- comes between the name of the destructor and the first method.
structure ServiceHeader where
  before : Text
  service : Text
  opening : Text
  methods : List ProtoMethod
  closing : Text
deriving DecidableEq, Repr

def ServiceHeader.text (header : ServiceHeader) : Text :=
  header.before ++ ("virtual ~".toList ++ (header.service ++ ('(' :: (header.opening ++
    methodsText header.methods ('\n' :: header.closing)))))

def IsTypeName (name : Text) : Prop := ∀ c ∈ name, c.isAlphanum = true ∨ c = '_' ∨ c = ':'

structure ProtoMethod.Written (method : ProtoMethod) : Prop where
  name : IsTypeName method.name
  request : IsTypeName method.request
  response : IsTypeName method.response
  noMacro : ¬"PROTOBUF_NAMESPACE_ID".toList <:+: method.name ∧ ¬"PROTOBUF_NAMESPACE_ID".toList <:+: method.request ∧
    ¬"PROTOBUF_NAMESPACE_ID".toList <:+: method.response

structure ServiceHeader.Written (header : ServiceHeader) : Prop where
  before : ¬"virtual ~".toList <:+: header.before
  service : IsTypeName header.service
  opening : ¬"virtual void".toList <:+: header.opening
  methods : ∀ method ∈ header.methods, method.Written
  closing : ¬"virtual void".toList <:+: header.closing

def describedMethod (className : Text) (method : ProtoMethod) : GeneratedMethod where
  entry := interfaceEntry method.name
  requestType := "::".toList ++ method.request
  responseType := "::".toList ++ method.response
  definition := "void ".toList ++ className ++ "::".toList ++
    (signature "google::protobuf".toList method).drop 5 ++ ")\x7b\n\n  CALL_RPC_INTERFACE(".toList ++
    (interfaceEntry method.name).interfaceClassName ++ ");\n\x7d".toList

-- What the generator reads is what the header declares, but for the types of
-- messages whose names contain the name of their argument.
structure HeaderRead (header : ServiceHeader) (methods : List GeneratedMethod) : Prop where
  parsed : parseHeader header.text = some (header.service, methods)
  entries : methods.map GeneratedMethod.entry = header.methods.map fun method => interfaceEntry method.name
  definitions : methods.map GeneratedMethod.definition =
    header.methods.map fun method => (describedMethod (toCamel header.service ++ "Impl".toList) method).definition
  types : methods = header.methods.map (describedMethod (toCamel header.service ++ "Impl".toList)) ↔
    ∀ method ∈ header.methods, ¬"request".toList <:+: method.request ∧ ¬"response".toList <:+: method.response

theorem find_at (pattern front back : Text) (borderless : Borderless pattern) (free : ¬pattern <:+: front) :
    textFind pattern (front ++ (pattern ++ back)) = front.length := by
  simp only [textFind, TextSearch.find_first pattern front back borderless free]

theorem find_missing (pattern text : Text) (free : ¬pattern <:+: text) : textFind pattern text = -1 := by
  simp only [textFind, TextSearch.find_none pattern text free]

theorem free_absent (pattern text : Text) (c : Char) (member : c ∈ pattern) (absent : c ∉ text) : ¬pattern <:+: text :=
  fun inside => absent (inside.subset member)

theorem slice_bound_nat (text : Text) (bound : Nat) : sliceBound text bound = bound := by
  rw [sliceBound, if_neg (by omega), Int.toNat_natCast]

theorem slice_middle (front middle back : Text) (first last : Int) (starts : first = front.length)
    (ends : last = front.length + middle.length) : textSlice (front ++ (middle ++ back)) first last = middle := by
  subst starts ends
  rw [textSlice, ← Int.natCast_add, slice_bound_nat, slice_bound_nat, ← List.append_assoc,
    List.take_left' (List.length_append), List.drop_left]

theorem slice_from_behind (front back : Text) (first : Int) (starts : first = front.length) :
    sliceFrom (front ++ back) first = back := by
  subst starts
  rw [sliceFrom, slice_bound_nat, List.drop_left]

theorem type_name_absent (name : Text) (written : IsTypeName name) (c : Char)
    (other : ¬(c.isAlphanum = true ∨ c = '_' ∨ c = ':')) : c ∉ name :=
  fun member => other (written c member)

theorem scan_service (before service rest : Text) (free : ¬"virtual ~".toList <:+: before) (written : IsTypeName service) :
    scanService (before ++ ("virtual ~".toList ++ (service ++ ('(' :: rest)))) = (service, '(' :: rest) := by
  have start : textFind "virtual ~".toList (before ++ ("virtual ~".toList ++ (service ++ ('(' :: rest)))) = before.length :=
    find_at _ _ _ (by decide) free
  have text := slice_from_behind before ("virtual ~".toList ++ (service ++ ('(' :: rest))) before.length rfl
  have tilde : textFind "~".toList ("virtual ~".toList ++ (service ++ ('(' :: rest))) = 8 :=
    find_at "~".toList "virtual ".toList (service ++ ('(' :: rest)) (by decide) (by decide)
  have bracket : textFind "(".toList ("virtual ~".toList ++ (service ++ ('(' :: rest))) = 9 + service.length := by
    have absent : '(' ∉ "virtual ~".toList ++ service := by
      rw [List.mem_append, not_or]
      exact ⟨by decide, type_name_absent service written '(' (by decide)⟩
    have found := find_at "(".toList ("virtual ~".toList ++ service) rest (by decide)
      (free_absent _ _ '(' (by decide) absent)
    rw [List.append_assoc] at found
    rw [List.length_append] at found
    exact found.trans (by simp)
  simp only [scanService, start, text, tilde, bracket]
  have whole : before ++ ("virtual ~".toList ++ (service ++ ('(' :: rest))) =
      (before ++ "virtual ~".toList) ++ (service ++ ('(' :: rest)) := (List.append_assoc _ _ _).symm
  have length : (before ++ "virtual ~".toList).length = before.length + 9 := List.length_append
  rw [whole, slice_middle (before ++ "virtual ~".toList) service _ _ _ (by omega) (by omega), ← List.append_assoc _ service,
    slice_from_behind (before ++ "virtual ~".toList ++ service) _ _ (by rw [List.length_append]; omega)]

theorem argument_absent (front name back : Text) (c : Char) (written : IsTypeName name)
    (other : ¬(c.isAlphanum = true ∨ c = '_' ∨ c = ':')) (before : c ∉ front) (behind : c ∉ back) :
    c ∉ front ++ (name ++ back) :=
  List.not_mem_append before (List.not_mem_append (type_name_absent name written c other) behind)

theorem signature_no_bracket (namespaceId : Text) (method : ProtoMethod) (written : method.Written)
    (absent : ')' ∉ namespaceId) : ')' ∉ signature namespaceId method := by
  have comma (text : Text) (free : ')' ∉ text) : ')' ∉ ',' :: text := List.not_mem_cons_of_ne_of_not_mem (by decide) free
  have request : ')' ∉ requestArgument method := argument_absent _ _ _ ')' written.request (by decide) (by decide) (by decide)
  have response : ')' ∉ responseArgument method :=
    argument_absent _ _ _ ')' written.response (by decide) (by decide) (by decide)
  have arguments := comma _ (List.not_mem_append request (comma _ (List.not_mem_append response
    (comma "\n                       ::google::protobuf::Closure* done".toList (by decide)))))
  apply argument_absent _ _ _ ')' written.name (by decide) (by decide)
  exact List.not_mem_append (by decide) (List.not_mem_append absent (List.not_mem_append (by decide) arguments))

theorem method_text_starts (method : ProtoMethod) : ∃ body, methodText method = "virtual void".toList ++ body :=
  ⟨" ".toList ++ ((signature "PROTOBUF_NAMESPACE_ID".toList method).drop 5 ++ ");".toList), rfl⟩

theorem method_list_none (text : Text) (free : ¬"virtual void".toList <:+: text) : methodList text = [] := by
  rw [methodList, dif_neg (by rw [find_missing _ text free]; simp)]

theorem method_list_next (front rest : Text) (method : ProtoMethod) (written : method.Written)
    (free : ¬"virtual void".toList <:+: front) :
    methodList (front ++ (methodText method ++ ('\n' :: rest))) = methodText method :: methodList rest := by
  obtain ⟨body, starts⟩ := method_text_starts method
  have i1 : textFind "virtual void".toList (front ++ (methodText method ++ ('\n' :: rest))) = front.length := by
    rw [starts, List.append_assoc]
    exact find_at _ front _ (by decide) free
  let head := "virtual ".toList ++ signature "PROTOBUF_NAMESPACE_ID".toList method
  have ends : methodText method = head ++ ");".toList := rfl
  have i2 : textFind ");".toList (methodText method ++ ('\n' :: rest)) = head.length := by
    have absent : ')' ∉ head := by
      rw [List.mem_append, not_or]
      exact ⟨by decide, signature_no_bracket _ method written (by decide)⟩
    rw [ends, List.append_assoc]
    exact find_at _ head _ (by decide) (free_absent _ head ')' (by decide) absent)
  have length : (methodText method).length = head.length + 2 := by rw [ends, List.length_append]; rfl
  have found : textFind "virtual void".toList (front ++ (methodText method ++ ('\n' :: rest))) ≠ -1 := by
    rw [i1]
    omega
  have behind : front ++ (methodText method ++ ('\n' :: rest)) = (front ++ methodText method ++ ['\n']) ++ rest := by simp
  rw [methodList, dif_pos found]
  simp only [i1, slice_from_behind front (methodText method ++ ('\n' :: rest)) _ rfl, i2]
  rw [slice_middle front (methodText method) _ _ _ rfl (by omega), behind,
    slice_from_behind _ rest _ (by simp only [List.length_append, List.length_singleton]; omega)]

theorem indented_free (front : Text) (free : ¬"virtual void".toList <:+: front) :
    ¬"virtual void".toList <:+: front ++ "  ".toList := by
  intro inside
  have twice : front ++ "  ".toList = front ++ [' '] ++ [' '] := by simp
  rw [twice] at inside
  exact free (TextSearch.infix_trailing _ front ' ' (by decide)
    (TextSearch.infix_trailing _ (front ++ [' ']) ' ' (by decide) inside))

-- What is behind a method begins the next search, so induction on the methods
-- goes over all that may stand before them.
theorem methods_listed (front closing : Text) (methods : List ProtoMethod) (written : ∀ method ∈ methods, method.Written)
    (free : ¬"virtual void".toList <:+: front) (closed : ¬"virtual void".toList <:+: closing) :
    methodList (front ++ methodsText methods ('\n' :: closing)) = methods.map methodText := by
  induction methods generalizing front with
  | nil =>
      apply method_list_none
      exact TextSearch.free_before _ front _ '\n' rfl (by decide) free
        (TextSearch.free_behind _ ['\n'] closing '\n' rfl (by decide) (by decide) closed)
  | cons method methods ih =>
      obtain ⟨here, others⟩ := List.forall_mem_cons.mp written
      rw [methodsText, ← List.append_assoc, method_list_next _ _ method here (indented_free front free)]
      exact congrArg (methodText method :: ·) (ih [] others (by decide))

theorem argument_free (pattern front name back : Text) (last first : Char) (ends : front.getLast? = some last)
    (starts : back.head? = some first) (outside : last ∉ pattern ∧ first ∉ pattern) (frontFree : ¬pattern <:+: front)
    (free : ¬pattern <:+: name) (backFree : ¬pattern <:+: back) : ¬pattern <:+: front ++ (name ++ back) :=
  TextSearch.free_behind pattern front _ last ends outside.1 frontFree
    (TextSearch.free_before pattern name back first starts outside.2 free backFree)

-- What follows the macro in a declaration.
def callText (method : ProtoMethod) : Text :=
  "::RpcController* controller".toList ++ (',' :: (requestArgument method ++ (',' :: (responseArgument method ++
    (',' :: "\n                       ::google::protobuf::Closure* done".toList)))))

theorem call_text_free (method : ProtoMethod) (written : method.Written) :
    ¬"PROTOBUF_NAMESPACE_ID".toList <:+: callText method ++ ");".toList := by
  obtain ⟨_, requestFree, responseFree⟩ := written.noMacro
  have comma (front back : Text) (frontFree : ¬"PROTOBUF_NAMESPACE_ID".toList <:+: front)
      (backFree : ¬"PROTOBUF_NAMESPACE_ID".toList <:+: back) : ¬"PROTOBUF_NAMESPACE_ID".toList <:+: front ++ (',' :: back) :=
    TextSearch.free_before _ front _ ',' rfl (by decide) frontFree
      (TextSearch.free_behind _ [','] back ',' rfl (by decide) (by decide) backFree)
  have request : ¬"PROTOBUF_NAMESPACE_ID".toList <:+: requestArgument method :=
    argument_free _ _ _ _ ':' '*' (by decide) rfl (by decide) (by decide) requestFree (by decide)
  have response : ¬"PROTOBUF_NAMESPACE_ID".toList <:+: responseArgument method :=
    argument_free _ _ _ _ ':' '*' (by decide) rfl (by decide) (by decide) responseFree (by decide)
  refine TextSearch.free_before _ _ _ ')' rfl (by decide) ?_ (by decide)
  exact comma _ _ (by decide) (comma _ _ request (comma _ _ response (by decide)))

theorem macro_replaced (method : ProtoMethod) (written : method.Written) :
    TextSearch.replace "PROTOBUF_NAMESPACE_ID".toList "google::protobuf".toList (methodText method) =
      "virtual ".toList ++ (signature "google::protobuf".toList method ++ ");".toList) := by
  let front := "virtual void ".toList ++ (method.name ++ "(::".toList)
  have regroup (first second name bracket namespaceId call close : Text) :
      first ++ ((second ++ (name ++ (bracket ++ (namespaceId ++ call)))) ++ close) =
        ((first ++ second) ++ (name ++ bracket)) ++ (namespaceId ++ (call ++ close)) := by
    simp only [List.append_assoc]
  have parts (namespaceId : Text) : "virtual ".toList ++ (signature namespaceId method ++ ");".toList) =
      front ++ (namespaceId ++ (callText method ++ ");".toList)) :=
    regroup "virtual ".toList "void ".toList method.name "(::".toList namespaceId (callText method) ");".toList
  have frontFree : ¬"PROTOBUF_NAMESPACE_ID".toList <:+: front :=
    argument_free _ _ _ _ ' ' '(' (by decide) rfl (by decide) (by decide) written.noMacro.1 (by decide)
  have same := TextSearch.replace_first "PROTOBUF_NAMESPACE_ID".toList "google::protobuf".toList front
    (callText method ++ ");".toList) (by decide) frontFree
  rw [TextSearch.replace_free _ _ _ (call_text_free method written)] at same
  calc TextSearch.replace "PROTOBUF_NAMESPACE_ID".toList "google::protobuf".toList (methodText method)
    _ = _ := congrArg _ (parts "PROTOBUF_NAMESPACE_ID".toList)
    _ = _ := same
    _ = _ := (parts "google::protobuf".toList).symm

theorem remove_char (c : Char) (text : Text) : removeAll [c] text = text.filter (· ≠ c) := by
  rw [removeAll, TextSearch.replace]
  induction text with
  | nil => rfl
  | cons d ds ih =>
      by_cases same : d = c
      · have here : [c] <+: d :: ds := by rw [same]; exact List.prefix_append [c] ds
        rw [TextSearch.replaceFrom, if_pos here, List.filter_cons_of_neg (by simpa using same)]
        exact ih
      · have other : ¬[c] <+: d :: ds := fun here => same (List.cons_prefix_cons.mp here).1.symm
        rw [TextSearch.replaceFrom, if_neg other, List.filter_cons_of_pos (by simpa using same), ih]

theorem char_removed (c : Char) (front name back : Text) (absent : c ∉ name) :
    removeAll [c] (front ++ (name ++ back)) = removeAll [c] front ++ (name ++ removeAll [c] back) := by
  have kept : name.filter (· ≠ c) = name := by
    rw [List.filter_eq_self]
    intro d member
    exact decide_eq_true fun same => absent (same ▸ member)
  rw [remove_char, remove_char, remove_char, List.filter_append, List.filter_append, kept]

-- The slice ends one before the name of the argument, at the blank behind the
-- star.
theorem type_cut (pattern front name : Text) (borderless : Borderless pattern) (ends : front.getLast? = some ':')
    (outside : ':' ∉ pattern ∧ '*' ∉ pattern) (blank : ¬pattern <:+: "* ".toList) (frontFree : ¬pattern <:+: front)
    (clean : ¬pattern <:+: name) :
    textSlice (front ++ (name ++ ("* ".toList ++ pattern))) 0 (textFind pattern (front ++ (name ++ ("* ".toList ++ pattern))) - 1) =
      front ++ (name ++ "*".toList) := by
  have before : ¬pattern <:+: front ++ (name ++ "* ".toList) :=
    argument_free pattern front name _ ':' '*' ends rfl outside frontFree clean blank
  have found := find_at pattern (front ++ (name ++ "* ".toList)) [] borderless before
  have split : (front ++ (name ++ "* ".toList)) ++ (pattern ++ []) = front ++ (name ++ ("* ".toList ++ pattern)) := by
    rw [List.append_nil, List.append_assoc, List.append_assoc]
  rw [split] at found
  have kept : front ++ (name ++ ("* ".toList ++ pattern)) = [] ++ ((front ++ (name ++ "*".toList)) ++ (' ' :: pattern)) := by
    rw [List.nil_append, List.append_assoc, List.append_assoc]
    rfl
  rw [found, kept]
  apply slice_middle [] _ _ _ _ rfl
  simp only [List.length_append, List.length_nil]
  rw [show "* ".toList.length = 2 from rfl, show "*".toList.length = 1 from rfl]
  omega

theorem blanks_removed (name : Text) (written : IsTypeName name) :
    removeAll " ".toList (removeAll "\n".toList ("\n                       ::".toList ++ (name ++ []))) = "::".toList ++ name := by
  have lineEnd := char_removed '\n' "\n                       ::".toList name [] (type_name_absent name written '\n' (by decide))
  have blank := char_removed ' ' (removeAll ['\n'] "\n                       ::".toList) name []
    (type_name_absent name written ' ' (by decide))
  have left : removeAll [' '] (removeAll ['\n'] "\n                       ::".toList) = "::".toList := by decide
  calc removeAll [' '] (removeAll ['\n'] ("\n                       ::".toList ++ (name ++ [])))
    _ = removeAll [' '] (removeAll ['\n'] "\n                       ::".toList ++ (name ++ [])) := congrArg _ lineEnd
    _ = "::".toList ++ name := by
        rw [blank, left]
        exact congrArg ("::".toList ++ ·) (List.append_nil name)

theorem star_removed (front name : Text) (written : IsTypeName name) (none : removeAll ['*'] front = front) :
    removeAll "*".toList (front ++ (name ++ "*".toList)) = front ++ (name ++ []) := by
  have removed := char_removed '*' front name "*".toList (type_name_absent name written '*' (by decide))
  have last : removeAll ['*'] "*".toList = [] := by decide
  rw [none, last] at removed
  exact removed

theorem request_type_read (method : ProtoMethod) (written : method.Written) (clean : ¬"request".toList <:+: method.request) :
    requestTypeOf (requestArgument method) = "::".toList ++ method.request := by
  have absent (c : Char) (other : ¬(c.isAlphanum = true ∨ c = '_' ∨ c = ':')) : c ∉ method.request :=
    type_name_absent method.request written.request c other
  have cut := type_cut "request".toList "\n                       const ::".toList method.request (by decide) (by decide)
    (by decide) (by decide) (by decide) clean
  have star := star_removed "\n                       const ::".toList method.request written.request (by decide)
  have const : removeAll "const ".toList ("\n                       const ::".toList ++ (method.request ++ [])) =
      "\n                       ::".toList ++ (method.request ++ []) := by
    have behind : ¬"const ".toList <:+: "::".toList ++ (method.request ++ []) :=
      free_absent _ _ ' ' (by decide) (List.not_mem_append (by decide) (List.not_mem_append
        (type_name_absent method.request written.request ' ' (by decide)) List.not_mem_nil))
    have replaced := TextSearch.replace_first "const ".toList [] "\n                       ".toList
      ("::".toList ++ (method.request ++ [])) (by decide) (by decide)
    rw [TextSearch.replace_free _ _ _ behind, List.nil_append, ← List.append_assoc, ← List.append_assoc,
      ← List.append_assoc _ "::".toList] at replaced
    have merged : "\n                       ".toList ++ "const ".toList ++ "::".toList = "\n                       const ::".toList ∧
        "\n                       ".toList ++ "::".toList = "\n                       ::".toList := by decide
    rw [merged.1, merged.2] at replaced
    exact replaced
  calc requestTypeOf (requestArgument method)
    _ = removeAll " ".toList (removeAll "\n".toList (removeAll "const ".toList (removeAll "*".toList
          ("\n                       const ::".toList ++ (method.request ++ "*".toList))))) := by
        rw [requestTypeOf]
        exact congrArg (fun text => removeAll [' '] (removeAll ['\n'] (removeAll "const ".toList (removeAll "*".toList text)))) cut
    _ = "::".toList ++ method.request := by
        rw [star, const]
        exact blanks_removed method.request written.request

theorem response_type_read (method : ProtoMethod) (written : method.Written) (clean : ¬"response".toList <:+: method.response) :
    responseTypeOf (responseArgument method) = "::".toList ++ method.response := by
  have cut := type_cut "response".toList "\n                       ::".toList method.response (by decide) (by decide)
    (by decide) (by decide) (by decide) clean
  have star := star_removed "\n                       ::".toList method.response written.response (by decide)
  calc responseTypeOf (responseArgument method)
    _ = removeAll " ".toList (removeAll "\n".toList (removeAll "*".toList
          ("\n                       ::".toList ++ (method.response ++ "*".toList)))) := by
        rw [responseTypeOf]
        exact congrArg (fun text => removeAll [' '] (removeAll ['\n'] (removeAll "*".toList text))) cut
    _ = "::".toList ++ method.response := by
        rw [star]
        exact blanks_removed method.response written.response

-- An occurrence inside of the name ends the slice there.
theorem cut_inside (c d : Char) (pattern front name back : Text) (different : c ≠ d) (inside : c :: pattern <:+: name) :
    ∃ length, textSlice (d :: front ++ (name ++ back)) 0 (textFind (c :: pattern) (d :: front ++ (name ++ back)) - 1) =
        (d :: front ++ (name ++ back)).take length ∧
      length + (c :: pattern).length < (d :: front).length + name.length := by
  have there : c :: pattern <:+: front ++ name := List.infix_append_of_infix_right inside
  obtain ⟨index, found, within⟩ := TextSearch.find_inside (c :: pattern) (front ++ name) back there
  have notFirst : ¬c :: pattern <+: d :: (front ++ (name ++ back)) := fun here =>
    different (List.cons_prefix_cons.mp here).1
  have position : textFind (c :: pattern) (d :: front ++ (name ++ back)) = (index + 1 : Nat) := by
    rw [List.append_assoc] at found
    simp only [textFind, List.cons_append, TextSearch.find, if_neg notFirst, found, Option.map_some]
  simp only [List.length_append, List.length_cons] at within
  refine ⟨index, ?_, by simp only [List.length_cons]; omega⟩
  rw [position, textSlice, show ((index + 1 : Nat) : Int) - 1 = (index : Nat) by omega, slice_bound_nat]
  rfl

def plainCount (text : Text) : Nat := (text.filter fun c => c ≠ '\n' ∧ c ≠ ' ').length

theorem removed_shorter (text : Text) : (removeAll " ".toList (removeAll "\n".toList text)).length ≤ plainCount text := by
  have same : removeAll " ".toList (removeAll "\n".toList text) = text.filter fun c => c ≠ '\n' ∧ c ≠ ' ' := by
    have lineEnd : removeAll "\n".toList text = text.filter (· ≠ '\n') := remove_char '\n' text
    rw [lineEnd]
    refine (remove_char ' ' _).trans ?_
    rw [List.filter_filter]
    apply List.filter_congr
    intro c _
    simp [Bool.and_comm]
  rw [same, plainCount]

theorem plain_count_sublist (text part : Text) (less : part.Sublist text) : plainCount part ≤ plainCount text :=
  (less.filter _).length_le

theorem plain_count_take (front behind : Text) (length : Nat) :
    plainCount ((front ++ behind).take length) ≤ plainCount front + (length - front.length) := by
  rw [List.take_append, plainCount, List.filter_append, List.length_append]
  have first := plain_count_sublist front (front.take length) (List.take_sublist _ _)
  have second := List.length_filter_le (fun c => c ≠ '\n' ∧ c ≠ ' ') (behind.take (length - front.length))
  have bound := List.length_take_le (length - front.length) behind
  rw [plainCount] at first
  omega

-- A slice that ends inside of the name is too short to hold it.
theorem cut_type_differs (front type tail read : Text) (length word : Nat)
    (taken : read.length ≤ plainCount ((front ++ (type ++ tail)).take length))
    (short : length + word < front.length + type.length) (long : word ≤ type.length) (plain : plainCount front ≤ word) :
    read ≠ "::".toList ++ type := by
  intro same
  have counted := plain_count_take front (type ++ tail) length
  have two : "::".toList.length = 2 := rfl
  rw [same, List.length_append] at taken
  omega

theorem request_type_cut (method : ProtoMethod) (inside : "request".toList <:+: method.request) :
    requestTypeOf (requestArgument method) ≠ "::".toList ++ method.request := by
  obtain ⟨length, cut, short⟩ := cut_inside 'r' '\n' "equest".toList "                       const ::".toList method.request
    "* request".toList (by decide) inside
  have sameCut : textSlice (requestArgument method) 0 (textFind "request".toList (requestArgument method) - 1) =
      ("\n                       const ::".toList ++ (method.request ++ "* request".toList)).take length := cut
  refine cut_type_differs "\n                       const ::".toList method.request "* request".toList _ length 7 ?_ short
    inside.length_le (by decide)
  rw [← sameCut]
  refine (removed_shorter _).trans (plain_count_sublist _ _ ?_)
  exact (TextSearch.replace_sublist _ _ 0).trans (TextSearch.replace_sublist _ _ 0)

theorem response_type_cut (method : ProtoMethod) (inside : "response".toList <:+: method.response) :
    responseTypeOf (responseArgument method) ≠ "::".toList ++ method.response := by
  obtain ⟨length, cut, short⟩ := cut_inside 'r' '\n' "esponse".toList "                       ::".toList method.response
    "* response".toList (by decide) inside
  have sameCut : textSlice (responseArgument method) 0 (textFind "response".toList (responseArgument method) - 1) =
      ("\n                       ::".toList ++ (method.response ++ "* response".toList)).take length := cut
  refine cut_type_differs "\n                       ::".toList method.response "* response".toList _ length 8 ?_ short
    inside.length_le (by decide)
  rw [← sameCut]
  exact (removed_shorter _).trans (plain_count_sublist _ _ (TextSearch.replace_sublist _ _ 0))

theorem slice_all_but_last (text : Text) (c : Char) : textSlice (text ++ [c]) 0 (-1) = text := by
  have bound : sliceBound (text ++ [c]) (-1) = text.length := by
    rw [sliceBound, if_pos (by decide), List.length_append, List.length_singleton]
    omega
  rw [textSlice, bound, List.take_left]
  rfl

def readMethod (className : Text) (method : ProtoMethod) : GeneratedMethod :=
  { describedMethod className method with
    requestType := requestTypeOf (requestArgument method)
    responseType := responseTypeOf (responseArgument method) }

-- The text that split(',') and the slices look at.
def definedText (method : ProtoMethod) : Text := signature "google::protobuf".toList method ++ ");".toList

theorem void_found (method : ProtoMethod) :
    sliceFrom ("virtual ".toList ++ definedText method) (textFind "void".toList ("virtual ".toList ++ definedText method)) =
      definedText method := by
  have found : textFind "void".toList ("virtual ".toList ++ definedText method) = "virtual ".toList.length :=
    find_at "void".toList "virtual ".toList (" ".toList ++ ((signature "google::protobuf".toList method).drop 5 ++ ");".toList))
      (by decide) (by decide)
  rw [found]
  exact slice_from_behind "virtual ".toList (definedText method) _ rfl

theorem name_found (method : ProtoMethod) (written : method.Written) :
    textSlice (definedText method) 5 (textFind "(".toList (definedText method)) = method.name := by
  let rest := "::google::protobuf".toList ++ callText method
  have bracket : definedText method = ("void ".toList ++ method.name) ++ ("(".toList ++ (rest ++ ");".toList)) := by
    rw [List.append_assoc]
    exact congrArg ("void ".toList ++ ·) (List.append_assoc method.name ("(".toList ++ rest) ");".toList)
  have absent : '(' ∉ "void ".toList ++ method.name :=
    List.not_mem_append (by decide) (type_name_absent method.name written.name '(' (by decide))
  have found := find_at "(".toList ("void ".toList ++ method.name) (rest ++ ");".toList) (by decide)
    (free_absent _ _ '(' (by decide) absent)
  rw [bracket, found, List.append_assoc, List.length_append]
  exact slice_middle "void ".toList method.name _ _ _ rfl (by simp)

theorem arguments_split (method : ProtoMethod) (written : method.Written) :
    ∃ first last, (definedText method).splitOn ',' = [first, requestArgument method, responseArgument method, last] := by
  let first := "void ".toList ++ (method.name ++ ("(::".toList ++ ("google::protobuf".toList ++ "::RpcController* controller".toList)))
  let last := "\n                       ::google::protobuf::Closure* done".toList ++ ");".toList
  have parts : definedText method =
      first ++ (',' :: (requestArgument method ++ (',' :: (responseArgument method ++ (',' :: last))))) := by
    have regroup (void name bracket macroText call request response done close : Text) :
        (void ++ (name ++ (bracket ++ (macroText ++ (call ++ (',' :: (request ++ (',' :: (response ++ (',' :: done)))))))))) ++
          close = (void ++ (name ++ (bracket ++ (macroText ++ call)))) ++
            (',' :: (request ++ (',' :: (response ++ (',' :: (done ++ close)))))) := by
      simp
    exact regroup "void ".toList method.name "(::".toList "google::protobuf".toList "::RpcController* controller".toList _ _
      "\n                       ::google::protobuf::Closure* done".toList ");".toList
  have firstFree : ',' ∉ first := argument_absent _ _ _ ',' written.name (by decide) (by decide) (by decide)
  have requestFree : ',' ∉ requestArgument method := argument_absent _ _ _ ',' written.request (by decide) (by decide) (by decide)
  have responseFree : ',' ∉ responseArgument method :=
    argument_absent _ _ _ ',' written.response (by decide) (by decide) (by decide)
  refine ⟨first, last, ?_⟩
  rw [parts, List.splitOn_append_cons_self_of_not_mem firstFree, List.splitOn_append_cons_self_of_not_mem requestFree,
    List.splitOn_append_cons_self_of_not_mem responseFree, List.splitOn_eq_singleton (by decide)]

theorem definition_text (className interfaceClassName tail : Text) :
    textSlice ("void ".toList ++ className ++ "::".toList ++ (tail ++ ");".toList)) 0 (-1) ++ "\x7b\n\n  ".toList ++
        "CALL_RPC_INTERFACE(".toList ++ interfaceClassName ++ ");\n\x7d".toList =
      "void ".toList ++ className ++ "::".toList ++ tail ++ ")\x7b\n\n  CALL_RPC_INTERFACE(".toList ++ interfaceClassName ++
        ");\n\x7d".toList := by
  have semicolon : "void ".toList ++ className ++ "::".toList ++ (tail ++ ");".toList) =
      ("void ".toList ++ className ++ "::".toList ++ (tail ++ ")".toList)) ++ [';'] := by
    rw [List.append_assoc _ _ [';'], List.append_assoc tail]
    rfl
  have regroup (front bracket opens call : Text) :
      front ++ (tail ++ bracket) ++ opens ++ call = front ++ tail ++ (bracket ++ (opens ++ call)) := by
    simp only [List.append_assoc]
  rw [semicolon, slice_all_but_last]
  exact congrArg (· ++ interfaceClassName ++ ");\n\x7d".toList)
    (regroup ("void ".toList ++ className ++ "::".toList) ")".toList "\x7b\n\n  ".toList "CALL_RPC_INTERFACE(".toList)

theorem parse_method (className : Text) (method : ProtoMethod) (written : method.Written) :
    parseMethod className (methodText method) = some (readMethod className method) := by
  have replaced : TextSearch.replace "PROTOBUF_NAMESPACE_ID".toList "google::protobuf".toList (methodText method) =
      "virtual ".toList ++ definedText method := macro_replaced method written
  obtain ⟨first, last, arguments⟩ := arguments_split method written
  have behind : sliceFrom (definedText method) 5 = (signature "google::protobuf".toList method).drop 5 ++ ");".toList :=
    slice_from_behind "void ".toList _ _ rfl
  have before : textSlice (definedText method) 0 5 = "void ".toList :=
    slice_middle [] "void ".toList ((signature "google::protobuf".toList method).drop 5 ++ ");".toList) _ _ rfl rfl
  unfold parseMethod
  rw [replaced]
  dsimp only
  rw [void_found method, name_found method written, arguments, behind, before]
  have text := definition_text className (interfaceEntry method.name).interfaceClassName
    ((signature "google::protobuf".toList method).drop 5)
  rw [text]
  rfl

theorem read_method_iff (className : Text) (method : ProtoMethod) (written : method.Written) :
    readMethod className method = describedMethod className method ↔
      ¬"request".toList <:+: method.request ∧ ¬"response".toList <:+: method.response := by
  constructor
  · intro same
    refine ⟨?_, ?_⟩
    · intro inside
      exact request_type_cut method inside (congrArg GeneratedMethod.requestType same)
    · intro inside
      exact response_type_cut method inside (congrArg GeneratedMethod.responseType same)
  · rintro ⟨request, response⟩
    rw [readMethod, request_type_read method written request, response_type_read method written response]
    rfl

theorem parse_methods (className : Text) (methods : List ProtoMethod) (written : ∀ method ∈ methods, method.Written) :
    (methods.map methodText).mapM (parseMethod className) = some (methods.map (readMethod className)) := by
  induction methods with
  | nil => rfl
  | cons method methods ih =>
      obtain ⟨here, others⟩ := List.forall_mem_cons.mp written
      rw [List.map_cons, List.mapM_cons, parse_method className method here, ih others]
      rfl

theorem parse_header (header : ServiceHeader) (written : header.Written) :
    parseHeader header.text =
      some (header.service, header.methods.map (readMethod (toCamel header.service ++ "Impl".toList))) := by
  have opened : ¬"virtual void".toList <:+: '(' :: header.opening :=
    TextSearch.free_behind _ ['('] header.opening '(' rfl (by decide) (by decide) written.opening
  have scanned := scan_service header.before header.service (header.opening ++ methodsText header.methods ('\n' :: header.closing))
    written.before written.service
  have listed := methods_listed ('(' :: header.opening) header.closing header.methods written.methods opened written.closing
  rw [List.cons_append] at listed
  rw [parseHeader, ServiceHeader.text, scanned]
  simp only [listed, parse_methods _ header.methods written.methods, Option.bind_eq_bind, Option.bind_some]

-- The types are read right exactly when the word request is not in the name of
-- a request type, nor response in that of a response type.
theorem header_read (header : ServiceHeader) (written : header.Written) : ∃ methods, HeaderRead header methods := by
  refine ⟨_, parse_header header written, ?_, ?_, ?_⟩
  · rw [List.map_map]
    rfl
  · rw [List.map_map]
    rfl
  · rw [List.map_inj_left]
    constructor
    · intro same method member
      exact (read_method_iff _ method (written.methods method member)).mp (same method member)
    · intro clean method member
      exact (read_method_iff _ method (written.methods method member)).mpr (clean method member)

-- The service of testcases/order.pb.h.
def orderHeader : ServiceHeader where
  before := "class Order : public ::PROTOBUF_NAMESPACE_ID::Service \x7b\n protected:\n  // This class should be treated as an ".toList ++
    "abstract interface.\n  inline Order() \x7b\x7d;\n public:\n  ".toList
  service := "Order".toList
  opening := ");\n\n  typedef Order_Stub Stub;\n\n  static const ::PROTOBUF_NAMESPACE_ID::ServiceDescriptor* ".toList ++
    "descriptor();\n\n".toList
  methods := [⟨"makeOrder".toList, "makeOrderRequest".toList, "makeOrderResponse".toList⟩]
  closing := "  // implements Service ----------------------------------------------\n".toList

theorem order_header_read : ∃ methods, HeaderRead orderHeader methods :=
  header_read orderHeader {
    before := free_absent _ _ '~' (by decide) (by decide +kernel)
    service := by
      change IsTypeName "Order".toList
      simp [IsTypeName]
    opening := free_absent _ _ 'l' (by decide) (by decide +kernel)
    methods := by
      intro method member
      cases List.mem_singleton.mp member
      exact ⟨by simp [IsTypeName], by simp [IsTypeName], by simp [IsTypeName], by decide +kernel⟩
    closing := free_absent _ _ 'u' (by decide) (by decide +kernel) }

-- A request type that has the word in its name loses it.
example : requestTypeOf (requestArgument ⟨"f".toList, "my_request".toList, "reply".toList⟩) = "::my".toList := by decide +kernel

end Rocket
