import Facade.Proofs.Declaration.FormedDocument
import Facade.Proofs.Translation.Provenance
import Facade.Definition.Render

/-!
# Where constructors stand

Constructors are methods of a name of their own, and `Page.method` writes a method of that name as
`def this`. A class may have such a method and nothing else may. Names that are spelled without
quotes are words, and the name of constructors is none, so only a member that is named by a string
could be taken for a constructor; `constructor_sites` says that there are no others to fear, and
where the real ones stand.
-/

set_option autoImplicit false

namespace Facade

open Facade.Text

/-! ### Names that are no name of constructors -/

/-- A name that is made up is not that of constructors. -/
theorem Identifier.IsMadeUp.ne_constructor {name : Identifier} (h : name.IsMadeUp) :
    name ≠ .constructor := by
  obtain ⟨count, rfl⟩ := h
  intro heq
  have hhead := congrArg (fun name : Identifier => name.raw.toList.head?) heq
  simp [constructor] at hhead

/-- Nor is a name of a parameter or a variable. -/
theorem IsBindingName.ne_constructor {name : String} (h : IsBindingName name) :
    (⟨name⟩ : Identifier) ≠ .constructor := by
  obtain ⟨lexeme, hscanned, hname⟩ := h
  rintro heq
  cases heq
  cases lexeme with
  | name text =>
    cases hname
    have hisName : IsName "<init>" := hscanned
    exact absurd hisName (by decide)
  | word w => revert hname; cases w <;> decide
  | _ => cases hname

/-- The declarations have no method that is named like a constructor by a string. -/
def NoForgedConstructor (declarations : List Declaration) : Prop :=
  ∀ declaration ∈ allAtAnyDepth declarations, ∀ optional signature,
    .method Identifier.constructor.raw optional signature ∉ declaration.members

/-- What is called under a name is no constructor. -/
theorem Declaration.Calls.ne_constructor {declarations : List Declaration}
    (hformed : everyDeclaration formed declarations) (hnone : NoForgedConstructor declarations)
    {declaration : Declaration} (hdeclaration : declaration ∈ allAtAnyDepth declarations)
    {given : Option Identifier} {signature : Signature} (h : declaration.Calls given signature)
    {made : Identifier} (hmade : made.IsMadeUp) : given.getD made ≠ .constructor := by
  cases h with
  | function name =>
    have hevery := every_allAtAnyDepth hformed _ hdeclaration
    exact IsBindingName.ne_constructor hevery.1
  | member hmember hcall =>
    cases hcall with
    | call => exact (by decide : Identifier.apply ≠ .constructor)
    | method word optional =>
      unfold memberName?
      split
      · exact hmade.ne_constructor
      · intro heq
        cases heq
        exact hnone declaration hdeclaration optional signature hmember

/-- Overloads of the name of constructors are those of a construct signature, in a class. -/
theorem Overloads.Of.constructors_of_name {declarations : List Declaration}
    (hformed : everyDeclaration formed declarations) (hnone : NoForgedConstructor declarations)
    {site : Site} {overloads : Overloads} (h : Of declarations site overloads)
    (hname : overloads.name = .constructor) :
    site = .inClass ∧ ∃ declaration ∈ allAtAnyDepth declarations, ∃ signature,
      declaration.Constructs signature ∧ overloads = signature.constructors := by
  cases h with
  | methods hdeclaration hcalls hmade =>
    exact absurd hname (hcalls.ne_constructor hformed hnone hdeclaration hmade)
  | constructors hdeclaration hconstructs => exact ⟨rfl, _, hdeclaration, _, hconstructs, rfl⟩

/-- Methods of the name of constructors are constructors of a class. -/
theorem Body.Consists.constructor {declarations : List Declaration}
    (hformed : everyDeclaration formed declarations) (hnone : NoForgedConstructor declarations)
    {site : Site} {body : Body} (h : body.Consists (Overloads.Of declarations site))
    {method : Method} (hmethod : method ∈ body.methods) (hname : method.name = .constructor) :
    site = .inClass ∧ method.typeParameters = [] ∧ method.result = .unit
      ∧ ∃ declaration ∈ allAtAnyDepth declarations, ∃ signature,
        declaration.Constructs signature ∧ method.parameters ∈ signature.parameterLists := by
  obtain ⟨all, hmethods, hall⟩ := h
  rw [hmethods] at hmethod
  obtain ⟨overloads, hoverloads, hin⟩ := List.mem_flatMap.mp hmethod
  obtain ⟨parameters, hparameters, rfl⟩ := List.mem_map.mp hin
  obtain ⟨hsite, declaration, hdeclaration, signature, hconstructs, rfl⟩ :=
    (hall overloads hoverloads).constructors_of_name hformed hnone hname
  exact ⟨hsite, rfl, rfl, declaration, hdeclaration, signature, hconstructs, hparameters⟩

/-! ### How methods are written -/

/-- A word with something behind it that is no part of it starts with `this` and a parenthesis only
if it is `this`. -/
theorem eq_this_of_startsWith {word rest : List Char} (hword : word.all continuesWord = true)
    (hrest : ∀ c ∈ rest.head?, continuesWord c = false)
    (h : "this(".toList <+: word ++ rest) : word = "this".toList := by
  have htake : (word ++ rest).takeWhile continuesWord = word := by
    rw [List.takeWhile_append_of_pos fun c hc => List.all_eq_true.mp hword c hc]
    cases rest with
    | nil => exact List.append_nil word
    | cons c rest =>
      rw [List.takeWhile_cons_of_neg (Bool.eq_false_iff.mp (hrest c rfl))]
      exact List.append_nil word
  obtain ⟨tail, htail⟩ := h
  rw [← htail] at htake
  have hthis : ("this(".toList ++ tail).takeWhile continuesWord = "this".toList := by
    have hchars : continuesWord 't' = true ∧ continuesWord 'h' = true ∧ continuesWord 'i' = true
      ∧ continuesWord 's' = true ∧ continuesWord '(' = false := by decide
    obtain ⟨ht, hh, hi, hs, hparen⟩ := hchars
    simp [ht, hh, hi, hs, hparen]
  exact htake.symm.trans hthis

/-- No name is written as `this` with a parenthesis or a bracket behind it: as a name, that word is
put between backquotes. -/
theorem Identifier.not_prefix_display (name : Identifier) {rest : List Char}
    (hrest : ∀ c ∈ rest.head?, continuesWord c = false) :
    ¬ "this(".toList <+: name.display.toList ++ rest := by
  intro h
  unfold display at h
  split at h
  · rename_i hplain
    simp only [isPlain, Bool.and_eq_true, Bool.not_eq_true'] at hplain
    have hword : name.raw.toList.all continuesWord = true := by
      have hword := hplain.1
      cases hchars : name.raw.toList with
      | nil => rw [hchars] at hword; cases hword
      | cons first more =>
        rw [hchars, isWord, Bool.and_eq_true] at hword
        rw [List.all_cons, continuesWord_of_startsWord hword.1, hword.2, Bool.true_and]
    have hthis : name.raw = "this" := String.toList_inj.mp (eq_this_of_startsWith hword hrest h)
    rw [hthis] at hplain
    exact absurd hplain.2 (by decide)
  · obtain ⟨tail, htail⟩ := h
    have hhead := congrArg List.head? htail
    simp at hhead

/-- Behind the name of a method there is a bracket or a parenthesis. -/
theorem head?_displayParameters (typeParameters : List Identifier)
    (parameters : List MethodParameter) :
    ∃ c, (displayTypeParameterNames typeParameters).toList.head?.or
        (displayMethodParameters parameters).toList.head? = some c
      ∧ continuesWord c = false := by
  cases typeParameters with
  | nil => exact ⟨'(', by simp [displayTypeParameterNames, displayMethodParameters], by decide⟩
  | cons name rest => exact ⟨'[', by simp [displayTypeParameterNames], by decide⟩

/-- A method that is no constructor is not written as one. -/
theorem Page.method_eq_line (page : Page) {method : Method} (h : method.name ≠ .constructor) :
    ∃ text, page.method method = page.line text ∧ ¬ "def this(".toList <+: text.toList := by
  have hname : method.name.isConstructor = false := beq_eq_false_iff_ne.mpr h
  obtain ⟨c, hhead, hc⟩ := head?_displayParameters method.typeParameters method.parameters
  rw [Page.method, hname]
  refine ⟨_, rfl, fun hprefix => ?_⟩
  have hdef : "def this(".toList = "def ".toList ++ "this(".toList := rfl
  simp only [hdef, String.toList_append, List.append_assoc, List.prefix_append_right_inj] at hprefix
  refine method.name.not_prefix_display (fun d hd => ?_) hprefix
  rw [← List.append_assoc, List.head?_append, List.head?_append, hhead] at hd
  cases hd
  exact hc

/-! ### Facades -/

/-- In a facade of a document without a method that is named `<init>` by a string, a method of the
name of constructors stands in a class that is no trait, comes from a construct signature or from
the member `constructor` of a class, and has no type parameters and the result `Unit`. Only such
methods are written as `def this`. -/
theorem constructor_sites {text : String} {document : Document}
    (htext : Document.ofText text = .ok document)
    (hnone : NoForgedConstructor document.declarations) (path : DottedName) :
    (∀ method ∈ (document.toPackage path).value.body.methods, method.name ≠ .constructor)
      ∧ (∀ outer, (document.toPackage path).value.body.Contains outer →
        ∀ definition ∈ outer.items, ∀ inner, definition.body? = some inner →
          ∀ method ∈ inner.methods, method.name = .constructor →
            (∃ owner, definition = .class owner ∧ owner.isTrait = false)
              ∧ method.typeParameters = [] ∧ method.result = .unit
              ∧ ∃ declaration ∈ allAtAnyDepth document.declarations, ∃ signature,
                declaration.Constructs signature
                  ∧ method.parameters ∈ signature.parameterLists)
      ∧ ∀ (page : Page) (method : Method), method.name ≠ .constructor →
        ∃ text, page.method method = page.line text ∧ ¬ "def this(".toList <+: text.toList := by
  have hformed := Document.formed_ofText htext
  have hcomposed := document.composed_toPackage path
  refine ⟨fun method hmethod hname => ?_, fun outer houter definition hdefinition inner hinner
    method hmethod hname => ?_, fun page method => page.method_eq_line⟩
  · cases (hcomposed.here.constructor hformed hnone hmethod hname).1
  · obtain ⟨site, hsite⟩ := houter.composed hcomposed
    obtain ⟨i, hi⟩ := List.getElem?_of_mem hdefinition
    obtain ⟨site', hcontainer⟩ := Definition.exists_container? hinner
    obtain ⟨hclass, htypes, hresult, hsource⟩ :=
      (hsite.inside hi hcontainer).here.constructor hformed hnone hmethod hname
    -- The site of the container is that of a class, so its definition is a class and no trait.
    subst hclass
    refine ⟨?_, htypes, hresult, hsource⟩
    cases definition with
    | «class» owner =>
      refine ⟨owner, rfl, ?_⟩
      cases htrait : owner.isTrait with
      | false => rfl
      | true => simp [Definition.container?, htrait] at hcontainer
    | _ => cases hcontainer

/-- An interface with a method that has the name of constructors as a string. -/
def forgedConstructor : Document where
  declarations := [.interface "I" [] []
    [.method "<init>" false ⟨[], [⟨"x", false, some (.primitive .number)⟩], none⟩]]
  lost := []

/-- In the trait that stands for it, there is a constructor. -/
theorem constructor_sites_forged :
    ∃ text document, Document.ofText text = .ok document ∧ ∃ owner : ClassDefinition,
      .class owner ∈ (document.toPackage .root).value.body.items ∧ owner.isTrait = true
        ∧ ∃ method ∈ owner.body.methods, method.name = .constructor :=
  ⟨"interface I \x7b \"<init>\"(x: number); \x7d", forgedConstructor, by with_unfolding_all rfl,
    ⟨⟨"I"⟩, [], [.object], true, none,
      ⟨[.method ⟨⟨"<init>"⟩, [], [⟨⟨"x"⟩, .number, false⟩], .dynamic⟩], 0⟩⟩,
    List.mem_singleton.mpr rfl, rfl, _, List.mem_singleton.mpr rfl, rfl⟩

/-- A class with a member `constructor`. -/
def classWithConstructor : Document where
  declarations := [.class "C" [] none [] [.method "constructor" false ⟨[], [], none⟩]]
  lost := []

/-- The text of that class. -/
theorem ofText_classWithConstructor :
    Document.ofText "class C \x7b constructor(); \x7d" = .ok classWithConstructor := by
  with_unfolding_all rfl

/-- It has no method that is named like a constructor by a string. -/
theorem noForgedConstructor_classWithConstructor :
    NoForgedConstructor classWithConstructor.declarations := by
  intro declaration hdeclaration optional signature hmember
  cases List.mem_singleton.mp hdeclaration
  simp [Declaration.members, Member.bare, Identifier.constructor] at hmember

/-- The facade of a class with a member `constructor` has its constructor in the class alone. -/
theorem constructor_sites_class :
    (∃ owner : ClassDefinition,
        .class owner ∈ (classWithConstructor.toPackage .root).value.body.items
          ∧ ∃ method ∈ owner.body.methods, method.name = .constructor)
      ∧ ∀ method ∈ (classWithConstructor.toPackage .root).value.body.methods,
        method.name ≠ .constructor :=
  ⟨⟨⟨⟨"C"⟩, [], [.object], false, none, ⟨[.method ⟨.constructor, [], [], .unit⟩], 0⟩⟩,
    List.mem_singleton.mpr rfl, _, List.mem_singleton.mpr rfl, rfl⟩,
    (constructor_sites ofText_classWithConstructor noForgedConstructor_classWithConstructor
      .root).1⟩

end Facade
