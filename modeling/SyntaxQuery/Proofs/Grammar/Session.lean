import SyntaxQuery.Grammar.Cache
import SyntaxQuery.Proofs.Grammar.Keeping

namespace SyntaxQuery.Grammar

structure Call where
  packages : Packages
  name : String

namespace Call

def key (c : Call) : String :=
  keyOf c.name

def package (c : Call) : String :=
  (locate c.key).package

def finds (c : Call) (key : String) : Bool :=
  c.key == key && c.packages.provides key

/-- The packages that calls import behind others: one for each call for a key that no call before it
has found. -/
def imports (earlier : List Call) : List Call → List String
  | [] => []
  | c :: rest =>
    (if earlier.any (·.finds c.key) then [] else [c.package]) ++ imports (earlier ++ [c]) rest

end Call

inductive Use where
  | language
  | parser
  | tree (code : Code)

/-- What happens in a session: something is called for a language, or other packages are installed. -/
inductive Event where
  | call (use : Use) (name : String)
  | change (packages : Packages)

def Event.key? : Event → Option String
  | call _ name => some (keyOf name)
  | change _ => none

def calls (packages : Packages) : List Event → List Call
  | [] => []
  | .call _ name :: rest => ⟨packages, name⟩ :: calls packages rest
  | .change packages :: rest => calls packages rest

inductive Answer (Tree : Type) where
  | language (found : Except Missing Language)
  | parser (made : Except Missing Parser)
  | tree (parsed : Except Missing Tree)
  | changed

structure Session where
  packages : Packages
  cache : Cache

section

variable {Tree : Type} (read : Parser → List UInt8 → Tree)

def Use.answer (found : Except Missing Language) : Use → Answer Tree
  | language => .language found
  | parser => .parser (found.map Parser.mk)
  | tree code => .tree (found.map fun language => read ⟨language⟩ code.bytes)

namespace Session

def fresh (packages : Packages) : Session :=
  ⟨packages, .empty⟩

def found (s : Session) (name : String) : Except Missing Language :=
  (s.cache.load s.packages name).value.1

def step (s : Session) : Event → Answer Tree × Session
  | .call .language name =>
    let (found, cache) := (s.cache.load s.packages name).value
    (.language found, { s with cache := cache })
  | .call .parser name =>
    let (made, cache) := (s.cache.parser s.packages name).value
    (.parser made, { s with cache := cache })
  | .call (.tree code) name =>
    let (parsed, cache) := (s.cache.parse read s.packages code name).value
    (.tree parsed, { s with cache := cache })
  | .change packages => (.changed, { s with packages := packages })

def after (s : Session) (events : List Event) : Session :=
  events.foldl (fun s e => (s.step read e).2) s

variable {read} {s : Session} {key name : String} {language : Language}

theorem step_call (s : Session) (use : Use) (name : String) :
    s.step read (.call use name) =
      (use.answer read (s.found name), ⟨s.packages, (s.cache.load s.packages name).value.2⟩) := by
  cases use with
  | language => rfl
  | parser => rfl
  | tree code =>
    change (Answer.tree (((s.found name).map Parser.mk).map fun parser => read parser code.bytes),
      _) = _
    rw [Use.answer]
    cases s.found name <;> rfl

theorem after_call (s : Session) (use : Use) (name : String) (events : List Event) :
    s.after read (.call use name :: events) =
      after read ⟨s.packages, (s.cache.load s.packages name).value.2⟩ events := by
  rw [after, List.foldl_cons, step_call]
  rfl

/-- What every load keeps of a cache, the whole session keeps. -/
theorem cache_after {P : Cache → Prop}
    (hl : ∀ cache packages name, P cache → P (cache.load packages name).value.2) (hs : P s.cache)
    (events : List Event) : P (s.after read events).cache := by
  induction events generalizing s with
  | nil => exact hs
  | cons e events ih =>
    cases e with
    | change packages => exact ih (s := ⟨packages, s.cache⟩) hs
    | call use name =>
      rw [after_call]
      exact ih (hl _ _ _ hs)

theorem find?_after {events : List Event} (h : ∀ e ∈ events, e.key? ≠ some key) :
    (s.after read events).cache.loaded.find? key = s.cache.loaded.find? key := by
  induction events generalizing s with
  | nil => rfl
  | cons e events ih =>
    obtain ⟨he, hr⟩ := List.forall_mem_cons.mp h
    cases e with
    | change packages => exact ih (s := ⟨packages, s.cache⟩) hr
    | call use name =>
      have hk : keyOf name ≠ key := fun hk => he (congrArg some hk)
      rw [after_call, ih hr]
      exact Cache.find?_load_of_ne hk

variable (read) in
theorem kept_after (h : s.found name = .ok language) (use : Use) (between : List Event) :
    ((s.step read (.call use name)).2.after read between).cache.loaded.find? (keyOf name) =
      some language := by
  refine cache_after (P := fun cache => cache.loaded.find? (keyOf name) = some language) ?_ ?_ between
  · exact fun cache packages other hc => Cache.find?_load hc packages other
  · rw [step_call]
    exact Cache.find?_of_load h

theorem found_again (h : s.found name = .ok language) (use : Use) (between : List Event)
    {name' : String} (hk : keyOf name' = keyOf name) (use' : Use) :
    let s' := (s.step read (.call use name)).2.after read between
    s'.found name' = .ok language ∧ (s'.step read (.call use' name')).2 = s' := by
  intro s'
  have hl : (s'.cache.load s'.packages name').value = (.ok language, s'.cache) := by
    apply Cache.load_found
    rw [hk]
    exact kept_after read h use between
  rw [step_call, found, hl]
  exact ⟨rfl, rfl⟩

variable (read) in
theorem isNumbered_after (h : s.cache.IsNumbered) (events : List Event) :
    (s.after read events).cache.IsNumbered :=
  cache_after (fun _ packages name hc => hc.load packages name) h events

theorem serial_ne (hs : s.cache.IsNumbered) (h : s.found name = .ok language) (use : Use)
    (between : List Event) {name' : String} {language' : Language} (hk : keyOf name' ≠ keyOf name)
    (h' : ((s.step read (.call use name)).2.after read between).found name' = .ok language') :
    language'.serial ≠ language.serial := by
  intro he
  -- both languages are kept behind the second load, where a number belongs to one key alone
  have hn := isNumbered_after read (isNumbered_after read hs [.call use name]) between
  have hf := Cache.find?_load (kept_after read h use between)
    ((s.step read (.call use name)).2.after read between).packages name'
  exact hk ((hn.load _ name').apart _ _ _ _ (Cache.find?_of_load h') hf he)

theorem found_after_failure {e : Missing} (h : s.found name = .error e) (use : Use)
    {between : List Event} (hb : ∀ e ∈ between, e.key? ≠ some (keyOf name)) {name' : String}
    (hk : keyOf name' = keyOf name) (use' : Use) :
    let s' := (s.step read (.call use name)).2.after read between
    (s'.step read (.call use' name')).2.cache.imports =
        s'.cache.imports ++ [(locate (keyOf name)).package] ∧
      ((∃ language, s'.found name' = .ok language) ↔
        s'.packages.provides (keyOf name) = true) := by
  intro s'
  obtain ⟨hn, -, hl⟩ := Cache.misses_of_load h
  have hf : s'.cache.loaded.has (keyOf name') = false := by
    rw [hk, Table.has, find?_after hb, step_call]
    exact congrArg Option.isSome ((congrArg (Table.find? · (keyOf name)) hl).trans hn)
  constructor
  · rw [step_call, Cache.imports_load, hf, hk]
    rfl
  · rw [found, Cache.load_ok_iff, hf, hk]
    exact or_iff_right Bool.false_ne_true

variable (read) in
/-- Of a cache it is enough to know what was called for so far: what is kept and what is imported
then follows from the calls. -/
theorem calls_after (events : List Event) (s : Session) (earlier : List Call)
    (h : ∀ key, s.cache.loaded.has key = earlier.any (·.finds key)) :
    (s.after read events).cache.imports =
        s.cache.imports ++ Call.imports earlier (calls s.packages events) ∧
      ∀ key, (s.after read events).cache.loaded.has key =
        (earlier ++ calls s.packages events).any (·.finds key) := by
  induction events generalizing s earlier with
  | nil =>
    rw [calls, List.append_nil, Call.imports, List.append_nil]
    exact ⟨rfl, h⟩
  | cons e events ih =>
    cases e with
    | change packages => exact ih ⟨packages, s.cache⟩ earlier h
    | call use name =>
      -- behind the call the cache is told by the earlier calls and this one
      have hc : ∀ key, (s.cache.load s.packages name).value.2.loaded.has key =
          (earlier ++ [Call.mk s.packages name]).any (·.finds key) := by
        intro key
        rw [List.any_append, ← h key, Cache.has_load, List.any_cons, List.any_nil, Bool.or_false]
        rfl
      obtain ⟨hi, hl⟩ := ih ⟨s.packages, (s.cache.load s.packages name).value.2⟩ _ hc
      rw [after_call, hi, Cache.imports_load, h, List.append_assoc]
      refine ⟨rfl, fun key => (hl key).trans ?_⟩
      rw [List.append_assoc]
      rfl

end Session

/-- What is loaded stays coherent over whole sessions, whatever is called for in which spelling and
whatever is installed in between. Each call gives back what it makes of the language that it finds.
A language that is found once is the same at every later call for its key, which imports nothing;
languages of different keys are different. A call that fails tells what is missing and leaves what is
loaded as it is; the next call for its key imports the package again, and succeeds exactly if the
package and its function are there then. All in all one package is imported for each call for a key
that no earlier call has found, in this order, and the keys that calls have found are those that are
kept. -/
theorem Session.stays_coherent (read : Parser → List UInt8 → Tree) (packages : Packages)
    (before : List Event) :
    let s := (fresh packages).after read before
    (∀ use name,
      let called := s.step read (.call use name)
      called.1 = use.answer read (s.found name) ∧
      (∀ language, s.found name = .ok language → ∀ between use' name',
        let s' := called.2.after read between
        (keyOf name' = keyOf name →
          s'.found name' = .ok language ∧ (s'.step read (.call use' name')).2 = s') ∧
        (keyOf name' ≠ keyOf name → ∀ language', s'.found name' = .ok language' →
          language'.serial ≠ language.serial)) ∧
      ∀ e, s.found name = .error e →
        Misses s.packages name e ∧ called.2.cache.loaded = s.cache.loaded ∧
        ∀ between, (∀ e ∈ between, e.key? ≠ some (keyOf name)) →
          ∀ use' name', keyOf name' = keyOf name →
            let s' := called.2.after read between
            (s'.step read (.call use' name')).2.cache.imports =
                s'.cache.imports ++ [(locate (keyOf name)).package] ∧
              ((∃ language, s'.found name' = .ok language) ↔
                s'.packages.provides (keyOf name) = true)) ∧
    s.cache.imports = Call.imports [] (calls packages before) ∧
    ∀ key, s.cache.loaded.has key = (calls packages before).any (·.finds key) := by
  intro s
  have hn : s.cache.IsNumbered := isNumbered_after read Cache.isNumbered_empty before
  obtain ⟨hi, hl⟩ := calls_after read before (fresh packages) [] fun _ => rfl
  refine ⟨fun use name => ⟨?_, fun language h between use' name' => ⟨?_, ?_⟩, fun e h => ?_⟩, hi, hl⟩
  · rw [step_call]
  · exact fun hk => found_again h use between hk use'
  · exact fun hk language' h' => serial_ne hn h use between hk h'
  · obtain ⟨-, he, hc⟩ := Cache.misses_of_load h
    refine ⟨he, ?_, fun between hb use' name' hk => found_after_failure h use hb hk use'⟩
    rw [step_call]
    exact hc

end

def lengthOnly (_ : Parser) (bytes : List UInt8) : Nat :=
  bytes.length

theorem Session.found_though_gone :
    let everything : Packages := fun _ => some fun _ => true
    let s := fresh everything
    let called := s.step lengthOnly (.call (.tree (.octets [97, 98, 99])) "Embedded-Ruby")
    let s' := called.2.after lengthOnly [.change fun _ => none]
    called.1 = .tree (.ok 3) ∧
      s'.found "EMBEDDED_RUBY" = s.found "Embedded-Ruby" ∧
      s'.found "ruby" = .error (.noPackage "ruby" "tree_sitter_ruby") ∧
      s'.cache.imports = ["tree_sitter_embedded_ruby"] := by
  intro everything s called s'
  have hf : s.found "Embedded-Ruby" = .ok ⟨0, "tree_sitter_embedded_ruby.language"⟩ := rfl
  obtain ⟨hc, ha, -⟩ := (stays_coherent lengthOnly everything []).1 (.tree (.octets [97, 98, 99]))
    "Embedded-Ruby"
  obtain ⟨hs, -⟩ := ha _ hf [.change fun _ => none] .language "EMBEDDED_RUBY"
  have hi := (stays_coherent lengthOnly everything
    [.call (.tree (.octets [97, 98, 99])) "Embedded-Ruby", .change fun _ => none]).2.1
  refine ⟨hc.trans ?_, ?_, rfl, hi.trans (by decide +kernel)⟩
  · change Use.answer lengthOnly (s.found "Embedded-Ruby") _ = _
    rw [hf]
    rfl
  · exact (hs (by decide +kernel)).1.trans hf.symm

end SyntaxQuery.Grammar
