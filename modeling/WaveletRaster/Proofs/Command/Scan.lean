import Mathlib
import WaveletRaster.Command.Arguments
import WaveletRaster.Proofs.Acceptance

/-! Options by their long names. The value of an option is read only when the next option comes, but
nothing is made of it in between: the request is the one that the options make when each is taken
with its value at once, from the left. -/

namespace WaveletRaster

def Switch.arguments (texts : Key → String) : Switch → List String
  | key k => ["--" ++ (key k).name, texts k]
  | s => ["--" ++ s.name]

def OptionValues.take (texts : Key → String) (v : OptionValues) :
    Switch → Except ArgumentError OptionValues
  | .key k => v.set k (texts k)
  | .verbose => v.setVerbose
  | .help => .error .helpRequested

def LooksLikeOption (text : String) : Prop := ∃ c rest, text.toList = '-' :: c :: rest

theorem Command.ofName?_name (c : Command) : ofName? c.name = some c := by
  cases c <;> decide

theorem Request.ofArguments_name (c : Command) (arguments : List String) :
    ofArguments (c.name :: arguments) = c.request arguments := by
  rw [ofArguments, c.ofName?_name]

theorem Command.switchNamed?_name {c : Command} {switch : Switch} (h : switch ∈ c.switches) :
    c.switchNamed? switch.name = some switch := by
  have hall : ∀ s ∈ c.switches, c.switchNamed? s.name = some s := by
    cases c <;> decide
  exact hall switch h

theorem Switch.name_ne_empty (switch : Switch) : switch.name ≠ "" := by
  obtain k | _ | _ := switch
  · cases k <;> decide
  all_goals decide

theorem Switch.equals_notMem_name (switch : Switch) : '=' ∉ switch.name.toList := by
  obtain k | _ | _ := switch
  · cases k <;> simp [name, Key.name]
  all_goals simp [name]

namespace ArgumentScan
variable {c : Command} {s : ArgumentScan}

def takeSwitch (s : ArgumentScan) : Switch → Except ArgumentError ArgumentScan
  | .key k => s.takeKey k none
  | switch => s.takeFlag switch

section
variable {switch : Switch} (h : switch ∈ c.switches)
include h

theorem takeLong_name : takeLong c s switch.name.toList = s.takeSwitch switch := by
  have hplain : ∀ d ∈ switch.name.toList, decide (d ≠ '=') = true := fun d hd =>
    decide_eq_true (ne_of_mem_of_not_mem hd switch.equals_notMem_name)
  have hname : switch.name.toList.takeWhile (· ≠ '=') = switch.name.toList :=
    List.takeWhile_eq_self_iff.mpr hplain
  have hvalue : switch.name.toList.dropWhile (· ≠ '=') = [] :=
    List.dropWhile_eq_nil_iff.mpr hplain
  rw [takeLong, hname, hvalue, String.ofList_toList, Command.switchNamed?_name h]
  cases switch <;> rfl

theorem step_name (htrailing : s.trailing = false) (hawaits : s.awaiting? = none) :
    step c s ("--" ++ switch.name) = s.takeSwitch switch := by
  obtain ⟨d, rest, hname⟩ := List.exists_cons_of_ne_nil
    (fun hnil => switch.name_ne_empty (String.toList_eq_nil_iff.mp hnil))
  have hlist : ("--" ++ switch.name).toList = '-' :: '-' :: d :: rest := by
    rw [String.toList_append, hname]
    rfl
  have hlong : step c s ("--" ++ switch.name) = takeLong c s (d :: rest) := by
    rw [step, htrailing, hawaits, hlist]
    rfl
  rw [hlong, ← hname]
  exact takeLong_name h

end

theorem step_value {v : OptionValues} {k : Key} {text : String}
    (hvalue : k.takesHyphens = true ∨ ¬LooksLikeOption text) :
    step c ⟨v, some ⟨k, none⟩, false⟩ text = .ok ⟨v, some ⟨k, some text⟩, false⟩ := by
  show (if k.takesHyphens = true then _ else _) = _
  split_ifs with hhyphens
  · rfl
  · have hplain := hvalue.resolve_left hhyphens
    split
    · exact absurd ⟨_, _, ‹_›⟩ hplain
    · exact absurd ⟨_, _, ‹_›⟩ hplain
    · exact absurd ⟨_, _, ‹_›⟩ hplain
    · rfl

/-- No option waits for its value, and once the last option is read the values come to `x`. -/
structure ComesTo (s : ArgumentScan) (x : Except ArgumentError OptionValues) : Prop where
  trailing : s.trailing = false
  awaiting? : s.awaiting? = none
  resolve : s.resolve = x.map (⟨·, none, false⟩)

inductive Tracks : Except ArgumentError ArgumentScan → Except ArgumentError OptionValues → Prop
  | refused (e : ArgumentError) : Tracks (.error e) (.error e)
  | scanned {s : ArgumentScan} {x : Except ArgumentError OptionValues} (h : s.ComesTo x) :
    Tracks (.ok s) x

theorem comesTo_settled (v : OptionValues) : ComesTo ⟨v, none, false⟩ (.ok v) := ⟨rfl, rfl, rfl⟩

theorem comesTo_pending (v : OptionValues) (k : Key) (text : String) :
    ComesTo ⟨v, some ⟨k, some text⟩, false⟩ (v.set k text) where
  trailing := rfl
  awaiting? := rfl
  resolve := by
    show (v.set k text >>= fun w => pure _) = _
    cases v.set k text <;> rfl

theorem Tracks.resolve {r : Except ArgumentError ArgumentScan}
    {x : Except ArgumentError OptionValues} (h : Tracks r x) :
    (r >>= ArgumentScan.resolve) = x.map (⟨·, none, false⟩) := by
  cases h with
  | refused e => rfl
  | scanned h => exact h.resolve

variable (texts : Key → String) {x : Except ArgumentError OptionValues}

theorem ComesTo.takeKey (hs : s.ComesTo x) (k : Key) :
    s.takeKey k none = x.map (⟨·, some ⟨k, none⟩, false⟩) := by
  rw [ArgumentScan.takeKey, hs.resolve]
  cases x <;> rfl

theorem ComesTo.takeFlag (hs : s.ComesTo x) {switch : Switch} (hflag : ∀ k, switch ≠ .key k) :
    s.takeFlag switch = (x >>= fun v => v.take texts switch).map (⟨·, none, false⟩) := by
  rw [ArgumentScan.takeFlag, hs.resolve]
  cases x with
  | error e => rfl
  | ok v =>
    cases switch with
    | key k => exact absurd rfl (hflag k)
    | verbose =>
      show (v.setVerbose >>= fun w => pure _) = v.setVerbose.map _
      cases v.setVerbose <;> rfl
    | help => rfl

theorem Tracks.of_map_settled (x : Except ArgumentError OptionValues) :
    Tracks (x.map (⟨·, none, false⟩)) x := by
  cases x with
  | error e => exact .refused e
  | ok v => exact .scanned (comesTo_settled v)

theorem tracks_arguments (hs : s.ComesTo x) {switch : Switch} (h : switch ∈ c.switches)
    (hvalue : ∀ k, switch = .key k → k.takesHyphens = true ∨ ¬LooksLikeOption (texts k)) :
    Tracks ((switch.arguments texts).foldlM (step c) s) (x >>= fun v => v.take texts switch) := by
  have hname := step_name h hs.trailing hs.awaiting?
  cases switch with
  | key k =>
    rw [Switch.arguments, List.foldlM_cons, hname, takeSwitch, hs.takeKey]
    cases x with
    | error e => exact .refused e
    | ok v =>
      show Tracks (step c ⟨v, some ⟨k, none⟩, false⟩ (texts k) >>= pure) (v.set k (texts k))
      rw [step_value (hvalue k rfl)]
      exact .scanned (comesTo_pending v k (texts k))
  | verbose | help =>
    rw [Switch.arguments, List.foldlM_cons, hname, takeSwitch, hs.takeFlag texts]
    · simp only [List.foldlM_nil, bind_pure]
      exact .of_map_settled _
    all_goals exact nofun

theorem tracks_flatMap_arguments {given : List Switch} (hs : s.ComesTo x)
    (hgiven : given ⊆ c.switches)
    (hvalues : ∀ k, .key k ∈ given → k.takesHyphens = true ∨ ¬LooksLikeOption (texts k)) :
    Tracks ((given.flatMap (Switch.arguments texts)).foldlM (step c) s)
      (x >>= fun v => given.foldlM (OptionValues.take texts) v) := by
  -- on the options; the scan and what its values come to move on together
  induction given generalizing s x with
  | nil =>
    rw [List.flatMap_nil]
    simp only [List.foldlM_nil, bind_pure]
    exact .scanned hs
  | cons switch given ih =>
    obtain ⟨hswitch, hrest⟩ := List.cons_subset.mp hgiven
    have hstep := tracks_arguments texts hs hswitch fun k hk => hvalues k (hk ▸ List.mem_cons_self)
    rw [List.flatMap_cons, List.foldlM_append]
    simp only [List.foldlM_cons, ← bind_assoc]
    generalize (switch.arguments texts).foldlM (step c) s = r at hstep ⊢
    generalize (x >>= fun v => v.take texts switch) = y at hstep ⊢
    cases hstep with
    | refused e => exact .refused e
    | scanned h => exact ih h hrest fun k hk => hvalues k (List.mem_cons_of_mem _ hk)

end ArgumentScan

theorem Command.request_flatMap_arguments {c : Command} {texts : Key → String}
    {given : List Switch} (hgiven : given ⊆ c.switches)
    (hvalues : ∀ k, .key k ∈ given → k.takesHyphens = true ∨ ¬LooksLikeOption (texts k)) :
    c.request (given.flatMap (Switch.arguments texts)) =
      given.foldlM (OptionValues.take texts) {} >>= fun v => v.request c := by
  have hscan := ArgumentScan.tracks_flatMap_arguments (s := .start) texts
    (ArgumentScan.comesTo_settled {}) hgiven hvalues
  rw [request, ← bind_assoc, hscan.resolve]
  show ((given.foldlM (OptionValues.take texts) {}).map _ >>= _) = _
  cases given.foldlM (OptionValues.take texts) {} <;> rfl

end WaveletRaster
