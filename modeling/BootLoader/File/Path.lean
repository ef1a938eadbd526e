import BootLoader.File.Tokenizer
import BootLoader.Heap.Code

/-!
# Path resolution as a recursion over the components

The abstract resolution follows the list of components, with the directories from the current
one up to the root. The loop follows it as long as no token is found behind the copy.
-/

open ByteMemory Tokens

namespace BootLoader.File

variable {σ φ : Type} (env : FsEnv σ φ)

/-! ## The abstract resolution -/

def components (path : List Byte) : List (List Byte) := tokens blPathDelimiter path

structure Resolution (σ φ : Type) where
  world : σ
  calls : List (Call φ)
  result : Except Failure φ

/-- From the node `cur` on, with its ancestors `parents`; `nodes` nodes have been obtained. -/
def resolve (env : FsEnv σ φ) (slash : Bool) :
    List (List Byte) → σ → Node φ → List (Node φ) → Nat → Resolution σ φ
  | [], world, cur, _, _ => ⟨world, [], .ok cur.fdata⟩
  | c :: cs, world, cur, parents, nodes =>
    if c = blCurrentDirectory then resolve env slash cs world cur parents nodes
    else if c = blPreviousDirectory then
      match parents with
      | [] => resolve env slash cs world cur [] nodes
      | parent :: parents =>
        resolve env slash cs (env.freeNode (env.close world cur.fdata) cur.id) parent parents nodes
    else
      let call : Call φ := ⟨c, !cs.isEmpty || slash, cur.fdata⟩
      match env.callback world c call.directory cur.fdata with
      | (world, .error status) => ⟨world, [call], .error status⟩
      | (world, .ok fdata) =>
        let r := resolve env slash cs world ⟨nodes + 1, fdata⟩ (cur :: parents) (nodes + 1)
        { r with calls := call :: r.calls }

/-- The resolution of a path, in the world in which its copy has been made. -/
def resolvePath (env : FsEnv σ φ) (world : σ) (path : CString) (root : φ) : Resolution σ φ :=
  resolve env (endsInDelimiter path.1) (components path.1) world ⟨0, root⟩ [] 0

/-- What a call reports: the status, and `*fdata` only with success. -/
def Resolution.status (r : Resolution σ φ) : BlStatus :=
  match r.result with
  | .ok _ => .success
  | .error status => status.1

def Resolution.fdata (r : Resolution σ φ) : Option φ :=
  match r.result with
  | .ok fdata => some fdata
  | .error _ => none

/-- The call returns, with the answer and the lookups of the abstract resolution. -/
def Resolves (env : FsEnv σ φ) (world : σ) (path : CString) (root : φ) : Prop :=
  ∃ out, blFileIteratePath env world path root = some out ∧
    let r := resolvePath env ((env.strndup world (path.1.length + 1)).getD world) path root
    out.status = r.status ∧ out.fdata = r.fdata ∧ out.calls = r.calls

/-! ## One component -/

theorem popNode_calls (w : Walk σ φ) : (popNode env w).calls = w.calls := by
  unfold popNode
  split <;> rfl

def Walk.visit (w : Walk σ φ) (filename : List Byte) : Walk σ φ :=
  { w with visited := w.visited ++ [filename] }

def Walk.found (w : Walk σ φ) (filename : List Byte) (directory : Bool) (world : σ) (fdata : φ) :
    Walk σ φ :=
  { w with
    world, top := ⟨w.nodes + 1, fdata⟩, below := w.top :: w.below, nodes := w.nodes + 1
    calls := w.calls ++ [⟨filename, directory, w.top.fdata⟩]
    log := w.log ++ [.read w.top.id] ++ [.obtained (w.nodes + 1)] }

def Walk.notFound (w : Walk σ φ) (filename : List Byte) (directory : Bool) (world : σ) :
    Walk σ φ :=
  { w with
    world, calls := w.calls ++ [⟨filename, directory, w.top.fdata⟩]
    log := w.log ++ [.read w.top.id] }

/-- Everything that one component can do. -/
inductive ComponentStep (env : FsEnv σ φ) (w : Walk σ φ) (filename : List Byte)
    (directory : Bool) : Walk σ φ × BlStatus → Prop where
  | current (h : filename = blCurrentDirectory) :
    ComponentStep env w filename directory (w.visit filename, .success)
  | previous (h : filename = blPreviousDirectory) :
    ComponentStep env w filename directory ((popNode env w).visit filename, .success)
  | found (hc : filename ≠ blCurrentDirectory) (hp : filename ≠ blPreviousDirectory)
    {world : σ} {fdata : φ}
    (h : env.callback w.world filename directory w.top.fdata = (world, .ok fdata)) :
    ComponentStep env w filename directory
      ((w.found filename directory world fdata).visit filename, .success)
  | notFound (hc : filename ≠ blCurrentDirectory) (hp : filename ≠ blPreviousDirectory)
    {world : σ} {status : Failure}
    (h : env.callback w.world filename directory w.top.fdata = (world, .error status)) :
    ComponentStep env w filename directory (w.notFound filename directory world, status)

theorem processComponent_step (w : Walk σ φ) (filename : List Byte) (directory : Bool) :
    ComponentStep env w filename directory (processComponent env w filename directory) := by
  unfold processComponent
  by_cases hp : filename = blPreviousDirectory
  · rw [if_pos hp]
    exact .previous hp
  rw [if_neg hp]
  by_cases hc : filename = blCurrentDirectory
  · rw [if_neg (not_not.mpr hc)]
    exact .current hc
  rw [if_pos hc]
  unfold pushNode
  cases hcall : env.callback w.world filename directory w.top.fdata with
  | mk world answer =>
    cases answer with
    | ok fdata => exact .found hc hp hcall
    | error status =>
      simp only [if_neg status.2]
      exact .notFound hc hp hcall

/-! ## All components -/

/-- The loop's body for one component after the other. -/
def processAll (env : FsEnv σ φ) (slash : Bool) :
    List (List Byte) → Walk σ φ → Walk σ φ × BlStatus
  | [], w => (w, .success)
  | c :: cs, w =>
    match processComponent env w c (!cs.isEmpty || slash) with
    | (w, .success) => processAll env slash cs w
    | (w, status) => (w, status)

/-! ### What the abstract resolution does for each kind of component -/

theorem blPreviousDirectory_ne_current : blPreviousDirectory ≠ blCurrentDirectory := by decide

section Components

variable {env} {slash : Bool} {c : List Byte} {cs : List (List Byte)} {world world' : σ}
  {cur : Node φ} {parents : List (Node φ)} {nodes : Nat}

theorem resolve_current (h : c = blCurrentDirectory) :
    resolve env slash (c :: cs) world cur parents nodes =
      resolve env slash cs world cur parents nodes := by
  simp only [resolve.eq_def env slash (c :: cs), if_pos h]

theorem resolve_previous (h : c = blPreviousDirectory) (w : Walk σ φ) :
    resolve env slash (c :: cs) w.world w.top w.below w.nodes =
      resolve env slash cs (popNode env w).world (popNode env w).top (popNode env w).below
        (popNode env w).nodes := by
  have hc : c ≠ blCurrentDirectory := h ▸ blPreviousDirectory_ne_current
  simp only [resolve.eq_def env slash (c :: cs), if_neg hc, if_pos h, popNode]
  cases hbelow : w.below with
  | nil => simp only [hbelow]
  | cons parent parents => rfl

theorem resolve_found (hc : c ≠ blCurrentDirectory) (hp : c ≠ blPreviousDirectory) {fdata : φ}
    (h : env.callback world c (!cs.isEmpty || slash) cur.fdata = (world', .ok fdata)) :
    resolve env slash (c :: cs) world cur parents nodes =
      let r := resolve env slash cs world' ⟨nodes + 1, fdata⟩ (cur :: parents) (nodes + 1)
      { r with calls := ⟨c, !cs.isEmpty || slash, cur.fdata⟩ :: r.calls } := by
  simp only [resolve.eq_def env slash (c :: cs), if_neg hc, if_neg hp, h]

theorem resolve_notFound (hc : c ≠ blCurrentDirectory) (hp : c ≠ blPreviousDirectory)
    {status : Failure}
    (h : env.callback world c (!cs.isEmpty || slash) cur.fdata = (world', .error status)) :
    resolve env slash (c :: cs) world cur parents nodes =
      ⟨world', [⟨c, !cs.isEmpty || slash, cur.fdata⟩], .error status⟩ := by
  simp only [resolve.eq_def env slash (c :: cs), if_neg hc, if_neg hp, h]

end Components

/-- A finished walk gives the answer of the abstract resolution. -/
structure Follows (w : Walk σ φ) (status : BlStatus) (calls : List (Call φ))
    (r : Resolution σ φ) : Prop where
  answer : status = r.status
  fdata : (if status = BlStatus.success then some w.top.fdata else none) = r.fdata
  calls : w.calls = calls ++ r.calls
  world : w.world = r.world

/-- The bodies do what the abstract resolution says. -/
theorem processAll_follows (slash : Bool) (cs : List (List Byte)) (w : Walk σ φ) :
    Follows (processAll env slash cs w).1 (processAll env slash cs w).2 w.calls
      (resolve env slash cs w.world w.top w.below w.nodes) := by
  induction cs generalizing w with
  | nil => exact ⟨rfl, rfl, (List.append_nil _).symm, rfl⟩
  | cons c cs ih =>
    have hstep := processComponent_step env w c (!cs.isEmpty || slash)
    rw [processAll]
    generalize processComponent env w c (!cs.isEmpty || slash) = out at hstep
    cases hstep with
    | current hc =>
      rw [resolve_current hc]
      exact ih (w.visit c)
    | previous hp =>
      rw [resolve_previous hp, ← popNode_calls env w]
      exact ih ((popNode env w).visit c)
    | found hc hp hcall =>
      rw [resolve_found hc hp hcall]
      obtain ⟨hstatus, hfdata, hcalls, hworld⟩ :=
        ih ((w.found c (!cs.isEmpty || slash) _ _).visit c)
      refine ⟨hstatus, hfdata, ?_, hworld⟩
      rw [hcalls]
      exact List.append_assoc _ [_] _
    | @notFound hc hp world status hcall =>
      rw [resolve_notFound hc hp hcall]
      have hout : (match (w.notFound c (!cs.isEmpty || slash) world, status.1) with
          | (w, .success) => processAll env slash cs w
          | (w, status) => (w, status)) =
            (w.notFound c (!cs.isEmpty || slash) world, status.1) := by
        split
        · next heq => exact absurd (congrArg Prod.snd heq) status.2
        · next heq => exact heq.symm
      rw [hout]
      exact ⟨rfl, if_neg status.2, rfl, rfl⟩

/-- The last component apart from those before it, which are followed by another one. -/
theorem processAll_append (slash : Bool) (init : List (List Byte)) (last : List Byte)
    (w : Walk σ φ) :
    processAll env slash (init ++ [last]) w =
      match processAll env true init w with
      | (w, .success) => processComponent env w last slash
      | (w, status) => (w, status) := by
  induction init generalizing w with
  | nil =>
    have hlast : processAll env slash [last] w = match processComponent env w last slash with
        | (w, .success) => (w, .success)
        | (w, status) => (w, status) := rfl
    rw [List.nil_append, hlast]
    simp only [processAll]
    split
    · next heq => exact heq.symm
    · next heq => exact heq.symm
  | cons c init ih =>
    have hmore : (!(init ++ [last]).isEmpty || slash) = true := by
      cases init <;> rfl
    have hmore' : (!init.isEmpty || true) = true := Bool.or_true _
    rw [List.cons_append, processAll, processAll, hmore, hmore']
    cases processComponent env w c true with
    | mk w status =>
      cases status
      case success => exact ih w
      all_goals rfl

/-! ## The loop -/

/-- Where the loop stands: at the token `c`, with `tail` behind it; a pointer behind the
terminator means that the path does not end in a delimiter. -/
structure Before (path : List Byte) (t : Tokenizer) (start : Nat) (c : List Byte)
    (tail : Option (List Byte)) : Prop where
  len : t.len = path.length
  token : AtToken t start c tail
  noSlash : tail = none → endsInDelimiter path = false
  slash : ∀ rest, tail = some rest →
    endsInDelimiter (blPathDelimiter :: rest) = endsInDelimiter path

/-- The look-ahead leaves the current token as it is. -/
theorem Before.stringAt {path : List Byte} {t t' : Tokenizer} {start scan : Nat} {c : List Byte}
    {tail : Option (List Byte)} (h : Before path t start c tail) (hadv : Advanced t t')
    (hscan : path.length < scan) (world : σ) :
    stringAt (byteAt env world t') scan start = some c := by
  have hbefore := h.token.before
  have hinside := h.token.inside
  have hpath := h.len
  have hlen := hadv.len
  have hbytes : HasBytes t'.copy start (c ++ [0]) := by
    apply hasBytes_advanced hadv h.token.bytes
    rw [List.length_append, List.length_singleton]
    omega
  apply stringAt_eq (hasBytes_byteAt env hbytes ?_) h.token.noNul (by omega)
  rw [List.length_append, List.length_singleton]
  omega

/-- The look-ahead from one component to the next: a component that is followed by another one
is a directory. -/
theorem iterateLoop_next {path : List Byte} {t : Tokenizer} {start scan : Nat} (fuel : Nat)
    {c : List Byte} {rest : List Byte} (h : Before path t start c (some rest))
    (hscan : path.length < scan) (hmore : tokens blPathDelimiter rest ≠ []) (w : Walk σ φ) :
    ∃ t' start' c' tail', Before path t' start' c' tail' ∧
      tokens blPathDelimiter rest = c' :: componentsLeft tail' ∧
      iterateLoop env path scan (fuel + 1) w t (some start) =
        match processComponent env w c true with
        | (w, .success) => iterateLoop env path scan fuel w t' (some start')
        | (w, status) => some (w, status) := by
  obtain ⟨t', start', c', tail', hcall, htoken, hadv, htokens, hno, hslash⟩ :=
    blStrtok_next env w.world h.token.left (h.len ▸ hscan) hmore
  have hne : rest ≠ [] := fun hnil => hmore (by rw [hnil, tokens_nil])
  have hends : endsInDelimiter rest = endsInDelimiter path := by
    rw [← h.slash rest rfl, endsInDelimiter_cons hne]
  have hlen : t'.len = path.length := hadv.len.trans h.len
  refine ⟨t', start', c', tail', ⟨hlen, htoken, fun hnone => (hno hnone) ▸ hends.symm,
    fun r hr => (hslash r hr).trans hends⟩, htokens, ?_⟩
  have hname := h.stringAt env hadv hscan w.world
  rewrite [iterateLoop, hcall]
  dsimp only
  rewrite [hname]
  rfl

theorem iterateLoop_last {path : List Byte} {t t' : Tokenizer} {start scan fuel : Nat}
    {c : List Byte} {tail : Option (List Byte)} (h : Before path t start c tail)
    (hscan : path.length < scan) {w : Walk σ φ} (hadv : Advanced t t')
    (hcall : blStrtok env scan w.world t = some (w.world, t', none)) :
    iterateLoop env path scan (fuel + 2) w t (some start) =
      some (processComponent env w c (endsInDelimiter path)) := by
  have hname := h.stringAt env hadv hscan w.world
  simp only [iterateLoop, hcall, hname, Option.isSome_none, Bool.false_or]
  cases processComponent env w c (endsInDelimiter path) with
  | mk w status =>
    cases status
    case success => rfl
    all_goals rfl

theorem iterateLoop_reaches_last {path : List Byte} {scan : Nat} (hscan : path.length < scan)
    (init : List (List Byte)) (last : List Byte) {t : Tokenizer} {start fuel : Nat}
    {c : List Byte} {tail : Option (List Byte)} (h : Before path t start c tail)
    (hcs : c :: componentsLeft tail = init ++ [last]) (hfuel : init.length + 2 ≤ fuel)
    (w : Walk σ φ) :
    (∃ w' status, status ≠ .success ∧ processAll env true init w = (w', status) ∧
      iterateLoop env path scan fuel w t (some start) = some (w', status)) ∨
    ∃ w' t' start' tail' fuel', processAll env true init w = (w', .success) ∧
      Before path t' start' last tail' ∧ componentsLeft tail' = [] ∧
      iterateLoop env path scan fuel w t (some start) =
        iterateLoop env path scan (fuel' + 2) w' t' (some start') := by
  induction init generalizing t start fuel c tail w with
  | nil =>
    rw [List.nil_append, List.cons.injEq] at hcs
    obtain ⟨rfl, hleft⟩ := hcs
    obtain ⟨fuel', rfl⟩ := Nat.exists_eq_add_of_le' hfuel
    exact .inr ⟨w, t, start, tail, fuel', rfl, h, hleft, by rw [List.length_nil, Nat.zero_add]⟩
  | cons c₀ init ih =>
    rw [List.cons_append, List.cons.injEq] at hcs
    obtain ⟨rfl, hleft⟩ := hcs
    have hmore : componentsLeft tail ≠ [] := by
      rw [hleft]
      exact List.append_ne_nil_of_right_ne_nil _ (List.cons_ne_nil _ _)
    cases tail with
    | none => exact absurd (by simp [componentsLeft]) hmore
    | some rest =>
      rw [List.length_cons] at hfuel
      obtain ⟨fuel, rfl⟩ := Nat.exists_eq_succ_of_ne_zero (by omega : fuel ≠ 0)
      obtain ⟨t', start', c', tail', hbefore, htokens, hloop⟩ :=
        iterateLoop_next env fuel h hscan hmore w
      have hflag : (!init.isEmpty || true) = true := Bool.or_true _
      have hcs' : c' :: componentsLeft tail' = init ++ [last] := by
        rw [← htokens]
        exact hleft
      rw [hloop, processAll, hflag]
      cases processComponent env w c true with
      | mk w' status =>
        by_cases hstatus : status = .success
        · subst hstatus
          exact ih hbefore hcs' (by omega) w'
        · refine .inl ⟨w', status, hstatus, ?_, ?_⟩
          · cases status <;> first | rfl | exact absurd rfl hstatus
          · cases status <;> first | rfl | exact absurd rfl hstatus

/-! ## The whole call -/

theorem processComponent_calls (w : Walk σ φ) (filename : List Byte) (directory : Bool) :
    w.calls <+: (processComponent env w filename directory).1.calls := by
  have hstep := processComponent_step env w filename directory
  generalize processComponent env w filename directory = out at hstep
  cases hstep with
  | current => exact List.prefix_rfl
  | previous =>
    show w.calls <+: (popNode env w).calls
    exact popNode_calls env w ▸ List.prefix_rfl
  | found => exact List.prefix_append _ _
  | notFound => exact List.prefix_append _ _

theorem processComponent_name (w : Walk σ φ) {filename : List Byte} (directory : Bool)
    (hc : filename ≠ blCurrentDirectory) (hp : filename ≠ blPreviousDirectory) :
    (processComponent env w filename directory).1.calls =
      w.calls ++ [⟨filename, directory, w.top.fdata⟩] := by
  have hstep := processComponent_step env w filename directory
  generalize processComponent env w filename directory = out at hstep
  cases hstep with
  | current h => exact absurd h hc
  | previous h => exact absurd h hp
  | found => rfl
  | notFound => rfl

theorem iterateLoop_calls {path : List Byte} {scan fuel : Nat} {w w' : Walk σ φ} {t : Tokenizer}
    {token : Option Nat} {status : BlStatus}
    (h : iterateLoop env path scan fuel w t token = some (w', status)) :
    w.calls <+: w'.calls := by
  induction fuel generalizing w t token with
  | zero => cases h
  | succ fuel ih =>
    cases token with
    | none =>
      cases h
      exact List.prefix_rfl
    | some start =>
      rw [iterateLoop] at h
      split at h
      · cases h
      next world t next hcall =>
      split at h
      · cases h
      next filename hname =>
      have hprefix := processComponent_calls env { w with world } filename
        (next.isSome || endsInDelimiter path)
      simp only at h
      split at h
      next heq =>
        rw [heq] at hprefix
        exact hprefix.trans (ih h)
      next heq =>
        cases h
        rw [heq] at hprefix
        exact hprefix

/-- A resolution that fails has looked something up. -/
theorem resolve_calls_ne_nil {slash : Bool} {cs : List (List Byte)} (w : Walk σ φ)
    (h : (resolve env slash cs w.world w.top w.below w.nodes).status ≠ .success) :
    (resolve env slash cs w.world w.top w.below w.nodes).calls ≠ [] := by
  induction cs generalizing w with
  | nil => exact absurd rfl h
  | cons c cs ih =>
    by_cases hc : c = blCurrentDirectory
    · rw [resolve_current hc] at h ⊢
      exact ih w h
    by_cases hp : c = blPreviousDirectory
    · rw [resolve_previous hp] at h ⊢
      exact ih (popNode env w) h
    cases hcall : env.callback w.world c (!cs.isEmpty || slash) w.top.fdata with
    | mk world answer =>
      cases answer with
      | ok fdata =>
        rw [resolve_found hc hp hcall]
        exact List.cons_ne_nil _ _
      | error status =>
        rw [resolve_notFound hc hp hcall]
        exact List.cons_ne_nil _ _

/-- Whether the last look-ahead finds nothing: the path ends in a delimiter, or there are only
delimiters and a zero behind the copy when the last component is reached. -/
def LookAheadEnds (env : FsEnv σ φ) (world : σ) (path : CString) (root : φ) : Prop :=
  endsInDelimiter path.1 = true ∨ ∀ init last, components path.1 = init ++ [last] →
    (resolve env true init world ⟨0, root⟩ [] 0).status = .success →
    NothingBehind env (scanFuel path.1) (resolve env true init world ⟨0, root⟩ [] 0).world

theorem lt_scanFuel (path : List Byte) : path.length + 3 < scanFuel path := by
  unfold scanFuel
  omega

/-- The copy can be made, and the last look-ahead finds nothing. -/
def CopyScanned (env : FsEnv σ φ) (world : σ) (path : CString) (root : φ) : Prop :=
  ∃ world', env.strndup world (path.1.length + 1) = some world' ∧
    LookAheadEnds env world' path root

theorem iterateLoop_none (path : List Byte) (scan fuel : Nat) (w : Walk σ φ) (t : Tokenizer) :
    iterateLoop env path scan (fuel + 1) w t none = some (w, .success) := rfl

theorem endsInDelimiter_of_tokens {rest : List Byte} (h : tokens blPathDelimiter rest = []) :
    endsInDelimiter (blPathDelimiter :: rest) = true := by
  obtain ⟨k, rfl | ⟨c, tail, rfl, hne, hsep, htail⟩⟩ :=
    exists_first_token blPathDelimiter rest
  · rw [endsInDelimiter, ← List.replicate_succ, List.getLast?_replicate, if_neg (by omega)]
    exact decide_eq_true rfl
  · rw [tokens_replicate_append] at h
    obtain rfl | ⟨rest, rfl⟩ := htail
    · rw [List.append_nil, tokens_self hne hsep] at h
      exact absurd h (List.cons_ne_nil _ _)
    · rw [tokens_append_sep hne hsep] at h
      exact absurd h (List.cons_ne_nil _ _)

theorem leave_answers {w : Walk σ φ} {status : BlStatus} {r : Resolution σ φ}
    (h : Follows w status [] r) :
    (leave env w status).status = r.status ∧ (leave env w status).fdata = r.fdata ∧
      (leave env w status).calls = r.calls :=
  ⟨h.answer, h.fdata, h.calls⟩

theorem blFileIteratePath_copied {world world' : σ} {path : CString} {root : φ}
    (h : env.strndup world (path.1.length + 1) = some world') :
    blFileIteratePath env world path root = iterateCopy env world' path root := by
  unfold blFileIteratePath
  rw [h]

/-- The first call of `bl_strtok`: there is no component, or the loop begins at the first one. -/
theorem iterateCopy_start (world : σ) (path : CString) (root : φ) :
    (components path.1 = [] ∧
      iterateCopy env world path root = some (leave env (Walk.start world root) .success)) ∨
    ∃ t start c tail, Before path.1 t start c tail ∧ components path.1 = c :: componentsLeft tail ∧
      iterateCopy env world path root =
        (iterateLoop env path.1 (scanFuel path.1) (scanFuel path.1) (Walk.start world root) t
          (some start)).map fun out => leave env out.1 out.2 := by
  have hfuel := lt_scanFuel path.1
  have hscan : path.1.length < scanFuel path.1 := by omega
  have hstart := remaining_start path
  unfold iterateCopy
  by_cases hnone : components path.1 = []
  · obtain ⟨t, hcall, -⟩ := blStrtok_end env world hstart hscan hnone
    obtain ⟨fuel, hsucc⟩ := Nat.exists_eq_succ_of_ne_zero (by omega : scanFuel path.1 ≠ 0)
    refine .inl ⟨hnone, ?_⟩
    rw [hcall, Option.bind_some, hsucc]
    have hloop := iterateLoop_none env path.1 fuel.succ fuel (Walk.start world root) t
    exact congrArg (Option.map fun out => leave env out.1 out.2) hloop
  · obtain ⟨t, start, c, tail, hcall, htoken, hadv, htokens, hno, hslash⟩ :=
      blStrtok_next env world hstart hscan hnone
    refine .inr ⟨t, start, c, tail, ⟨hadv.len, htoken, hno, hslash⟩, htokens, ?_⟩
    rw [hcall, Option.bind_some]

theorem iterateLoop_ends {path : List Byte} {t : Tokenizer} {start scan fuel : Nat}
    {c : List Byte} {tail : Option (List Byte)} (h : Before path t start c tail)
    (hleft : componentsLeft tail = []) (hscan : path.length < scan) (w : Walk σ φ)
    (hends : endsInDelimiter path = true ∨ NothingBehind env scan w.world) :
    iterateLoop env path scan (fuel + 2) w t (some start) =
      some (processComponent env w c (endsInDelimiter path)) := by
  cases tail with
  | some rest =>
    obtain ⟨t', hcall, hadv⟩ := blStrtok_end env w.world h.token.left
      (h.len ▸ hscan) hleft
    exact iterateLoop_last env h hscan hadv hcall
  | none =>
    have hbehind : NothingBehind env scan w.world := by
      rw [h.noSlash rfl] at hends
      simpa using hends
    obtain ⟨t', hcall, hadv⟩ := blStrtok_nothingBehind env h.token.left hbehind
    exact iterateLoop_last env h hscan hadv hcall

/-- There are turns for all components but the last, and two more. -/
theorem length_init_le {path : List Byte} {init : List (List Byte)} {last : List Byte}
    (hlast : components path = init ++ [last]) : init.length + 2 ≤ scanFuel path := by
  have hfuel := lt_scanFuel path
  have hlength : (components path).length ≤ path.length + 1 := length_tokens_le path
  rw [hlast, List.length_append, List.length_singleton] at hlength
  omega

theorem Before.tail_eq_none {path : List Byte} {t : Tokenizer} {start : Nat} {c : List Byte}
    {tail : Option (List Byte)} (h : Before path t start c tail) (hleft : componentsLeft tail = [])
    (hslash : endsInDelimiter path = false) : tail = none := by
  cases tail with
  | none => rfl
  | some rest =>
    have hends : endsInDelimiter (blPathDelimiter :: rest) = true := endsInDelimiter_of_tokens hleft
    rw [h.slash rest rfl, hslash] at hends
    exact Bool.noConfusion hends

/-- If the last look-ahead finds nothing, the loop does what the abstract resolution says. -/
theorem resolves_of_copyScanned {world : σ} {path : CString} {root : φ}
    (h : CopyScanned env world path root) : Resolves env world path root := by
  obtain ⟨world', hcopy, hends⟩ := h
  have hfuel := lt_scanFuel path.1
  have hscan : path.1.length < scanFuel path.1 := by omega
  unfold Resolves
  rw [blFileIteratePath_copied env hcopy, hcopy, Option.getD_some]
  have hfollows := processAll_follows env (endsInDelimiter path.1) (components path.1)
    (Walk.start world' root)
  obtain ⟨hnone, hcall⟩ | ⟨t, start, c, tail, hbefore, hcomponents, hcall⟩ :=
    iterateCopy_start env world' path root
  · rw [hnone] at hfollows
    refine ⟨_, hcall, ?_⟩
    unfold resolvePath
    rw [hnone]
    exact leave_answers env hfollows
  obtain ⟨init, last, hlast⟩ : ∃ init last, components path.1 = init ++ [last] :=
    ⟨_, _, (List.dropLast_append_getLast (by rw [hcomponents]; exact List.cons_ne_nil _ _)).symm⟩
  have hall := processAll_append env (endsInDelimiter path.1) init last
    (Walk.start world' root)
  rw [hlast] at hfollows
  refine ⟨leave env (processAll env (endsInDelimiter path.1) (init ++ [last])
    (Walk.start world' root)).1 (processAll env (endsInDelimiter path.1) (init ++ [last])
    (Walk.start world' root)).2, ?_, ?_⟩
  · rw [hcall, Option.map_eq_some_iff]
    refine ⟨_, ?_, rfl⟩
    obtain ⟨w, status, hstatus, hprocess, hloop⟩ | ⟨w, t', start', tail', fuel, hprocess, hbefore',
      hleft, hloop⟩ := iterateLoop_reaches_last env hscan init last hbefore
        (hcomponents.symm.trans hlast) (length_init_le hlast) (Walk.start world' root)
    · rw [hloop, hall, hprocess]
      cases status <;> first | rfl | exact absurd rfl hstatus
    · rw [hloop, hall, hprocess]
      apply iterateLoop_ends env hbefore' hleft hscan
      have hreached := processAll_follows env true init (Walk.start world' root)
      rw [hprocess] at hreached
      rcases hends with hslash | hbehind
      · exact .inl hslash
      · have hworld : w.world = _ := hreached.world
        rw [hworld]
        exact .inr (hbehind init last hlast hreached.answer.symm)
  · unfold resolvePath
    rw [hlast]
    exact leave_answers env hfollows

theorem iterateLoop_stray {path : List Byte} {t : Tokenizer} {start scan fuel : Nat}
    {c : List Byte} (h : Before path t start c none) (hscan : path.length < scan) {w w' : Walk σ φ}
    {status : BlStatus} (hc : c ≠ blCurrentDirectory) (hp : c ≠ blPreviousDirectory)
    (hstray : ¬NothingBehind env scan w.world)
    (hloop : iterateLoop env path scan (fuel + 1) w t (some start) = some (w', status)) :
    w.calls ++ [⟨c, true, w.top.fdata⟩] <+: w'.calls := by
  rw [iterateLoop] at hloop
  split at hloop
  · cases hloop
  next world t' next hcall =>
  obtain ⟨hadv, stray, rfl⟩ := blStrtok_stray env h.token.left hcall hstray
  rw [h.stringAt env hadv hscan world] at hloop
  have hcalls := processComponent_name env { w with world } true hc hp
  simp only [Option.isSome_some, Bool.true_or] at hloop
  split at hloop
  next heq =>
    rw [heq] at hcalls
    rw [← hcalls]
    exact iterateLoop_calls env hloop
  next heq =>
    cases hloop
    rw [heq] at hcalls
    exact hcalls ▸ List.prefix_rfl

/-- Where the last component is a name, a right answer needs that nothing is found behind the
copy. -/
theorem copyScanned_of_resolves {world : σ} {path : CString} {root : φ}
    (hname : ∀ last ∈ (components path.1).getLast?,
      last ≠ blCurrentDirectory ∧ last ≠ blPreviousDirectory)
    (h : Resolves env world path root) : CopyScanned env world path root := by
  obtain ⟨out, hout, hstatus, hfdata, hcalls⟩ := h
  cases hcopy : env.strndup world (path.1.length + 1) with
  | none =>
    rw [hcopy, Option.getD_none] at hstatus hcalls
    unfold blFileIteratePath at hout
    rw [hcopy] at hout
    cases hout
    refine absurd hcalls.symm (resolve_calls_ne_nil env (Walk.start world root) ?_)
    intro hsuccess
    exact BlStatus.noConfusion (hstatus.trans hsuccess)
  | some world' =>
    refine ⟨world', hcopy, ?_⟩
    rw [blFileIteratePath_copied env hcopy] at hout
    rw [hcopy, Option.getD_some] at hcalls
    have hfuel := lt_scanFuel path.1
    have hscan : path.1.length < scanFuel path.1 := by omega
    by_cases hslash : endsInDelimiter path.1 = true
    · exact .inl hslash
    rw [Bool.not_eq_true] at hslash
    refine .inr fun init last hlast hreach => ?_
    by_contra hstray
    obtain ⟨hc, hp⟩ := hname last (by rw [hlast, List.getLast?_concat]; rfl)
    obtain ⟨hnone, -⟩ | ⟨t, start, c, tail, hbefore, hcomponents, hcall⟩ :=
      iterateCopy_start env world' path root
    · rw [hlast] at hnone
      exact absurd hnone (List.append_ne_nil_of_right_ne_nil _ (List.cons_ne_nil _ _))
    have hreached := processAll_follows env true init (Walk.start world' root)
    have hspec := processAll_follows env false (init ++ [last]) (Walk.start world' root)
    rw [processAll_append env false init last] at hspec
    rw [hcall, Option.map_eq_some_iff] at hout
    obtain ⟨⟨wout, status⟩, hloop, rfl⟩ := hout
    obtain ⟨w, status', hfailed, hprocess, -⟩ | ⟨w, t', start', tail', fuel, hprocess, hbefore',
      hleft, hloop'⟩ := iterateLoop_reaches_last env hscan init last hbefore
        (hcomponents.symm.trans hlast) (length_init_le hlast) (Walk.start world' root)
    · rw [hprocess] at hreached
      exact hfailed (hreached.answer.trans hreach)
    rw [hprocess] at hreached hspec
    obtain rfl : tail' = none := hbefore'.tail_eq_none hleft hslash
    rw [hloop'] at hloop
    have hworld : w.world = (resolve env true init world' ⟨0, root⟩ [] 0).world := hreached.world
    rw [← hworld] at hstray
    have hprefix := iterateLoop_stray env hbefore' hscan hc hp hstray hloop
    -- the abstract resolution makes the same call without the flag
    have hright : wout.calls = w.calls ++ [⟨last, false, w.top.fdata⟩] := by
      have hlastCall := processComponent_name env w false hc hp
      have hspecCalls := hspec.calls
      rw [hlastCall] at hspecCalls
      show (leave env wout status).calls = _
      rw [hcalls, hspecCalls, resolvePath, hslash, hlast]
      rfl
    rw [hright] at hprefix
    have heq := hprefix.eq_of_length (by simp)
    simp at heq

/-- **The loop resolves a path as the recursion over its components does, if the copy can be made
and nothing is found behind it.** Where the last component is a name, only then. -/
theorem blFileIteratePath_resolves_iff (world : σ) (path : CString) (root : φ) :
    (CopyScanned env world path root → Resolves env world path root) ∧
    ((∀ last ∈ (components path.1).getLast?,
        last ≠ blCurrentDirectory ∧ last ≠ blPreviousDirectory) →
      (Resolves env world path root ↔ CopyScanned env world path root)) :=
  ⟨resolves_of_copyScanned env, fun hname =>
    ⟨copyScanned_of_resolves env hname, resolves_of_copyScanned env⟩⟩

/-! ## On the heap -/

/-- The heap, where the copy is, how many bytes were asked for it, and the nodes by number. -/
structure HeapWorld where
  heap : Heap.BlHeap
  copy : Nat
  size : Nat
  nodes : List Nat

/-- A file system whose lookups put a node of 8 bytes and data of 12 bytes on the heap. -/
def heapFs (lookup : List Byte → Bool → BlStatus) : FsEnv HeapWorld Nat where
  strndup w n :=
    match Heap.blHeapAlloc w.heap n with
    | none => none
    | some (heap, copy) =>
      if copy = 0 then none
      else some { w with
        heap := { heap with mem := store heap.mem (copy + n) 0 }, copy := copy, size := n }
  behind w i := w.heap.mem (w.copy + w.size + i)
  clear w i := { w with heap := { w.heap with mem := store w.heap.mem (w.copy + w.size + i) 0 } }
  callback w filename directory _ :=
    let status := lookup filename directory
    if h : status = .success then
      match Heap.blHeapAlloc w.heap 8 with
      | none => (w, .error ⟨.memoryAllocationFailed, by decide⟩)
      | some (heap, node) =>
        match Heap.blHeapAlloc heap 12 with
        | none => ({ w with heap }, .error ⟨.memoryAllocationFailed, by decide⟩)
        | some (heap, fdata) => ({ w with heap, nodes := w.nodes ++ [node] }, .ok fdata)
    else (w, .error ⟨status, h⟩)
  close w _ := w
  freeNode w id := { w with heap := Heap.blHeapFree w.heap (w.nodes.getD id 0) }
  freeCopy w := { w with heap := Heap.blHeapFree w.heap w.copy }

/-- `/aaaaaaa/bbbbbb`: 15 characters, so that the next block head follows the copy at once. -/
def fifteenCharacters : CString :=
  ⟨[0x2f, 0x61, 0x61, 0x61, 0x61, 0x61, 0x61, 0x61, 0x2f, 0x62, 0x62, 0x62, 0x62, 0x62, 0x62],
    by decide⟩

def lookupFile (filename : List Byte) (directory : Bool) : BlStatus :=
  if directory && filename.head? = some 0x62 then .invalidFileType else .success

/-- The heap of a fresh start, with the root node and its data. -/
def rootWorld : HeapWorld :=
  match Heap.blHeapAlloc ⟨fun _ => 0, 0x100000, 0, 0⟩ 8 with
  | none => ⟨⟨fun _ => 0, 0, 0, 0⟩, 0, 0, []⟩
  | some (heap, node) =>
    match Heap.blHeapAlloc heap 12 with
    | none => ⟨heap, 0, 0, [node]⟩
    | some (heap, _) => ⟨heap, 0, 0, [node]⟩

/-- The byte behind the copy is the low byte of the link to the block after next: it is taken for
one more component, and the file for a directory. -/
theorem file_taken_for_directory :
    ¬Resolves (heapFs lookupFile) rootWorld fifteenCharacters 0x100030 := by
  have hcode : (blFileIteratePath (heapFs lookupFile) rootWorld fifteenCharacters 0x100030).map
      (·.status) = some .invalidFileType := by decide +kernel
  have hspec : (resolvePath (heapFs lookupFile)
      (((heapFs lookupFile).strndup rootWorld 16).getD rootWorld)
      fifteenCharacters 0x100030).status = .success := by decide +kernel
  rintro ⟨out, hout, hstatus, -⟩
  rw [hout] at hcode
  cases hcode.symm.trans (congrArg some (hstatus.trans hspec))

end BootLoader.File
