import BootLoader.File.Path

/-!
# What a file system keeps along any path

If each function of a file system keeps a property of the world, then so does
`bl_file_iterate_path`, whatever the path and whatever lies behind its copy.
-/

open ByteMemory

namespace BootLoader.File

variable {σ φ : Type} {env : FsEnv σ φ} {I : σ → Prop} {J : φ → Prop}

/-- `I` holds of the world, and `J` of all file data. -/
structure FsEnv.Keeps (env : FsEnv σ φ) (I : σ → Prop) (J : φ → Prop) : Prop where
  strndup : ∀ world n world', I world → env.strndup world n = some world' → I world'
  clear : ∀ world i, I world → I (env.clear world i)
  callback : ∀ world filename directory fdata, I world → J fdata →
    I (env.callback world filename directory fdata).1
  found : ∀ world filename directory fdata found, I world → J fdata →
    (env.callback world filename directory fdata).2 = .ok found → J found
  close : ∀ world fdata, I world → J fdata → I (env.close world fdata)
  freeNode : ∀ world id, I world → I (env.freeNode world id)
  freeCopy : ∀ world, I world → I (env.freeCopy world)

/-- The property of a walk. -/
structure Walk.Keeps (I : σ → Prop) (J : φ → Prop) (w : Walk σ φ) : Prop where
  world : I w.world
  top : J w.top.fdata
  below : ∀ n ∈ w.below, J n.fdata

theorem Walk.Keeps.popNode (henv : env.Keeps I J) {w : Walk σ φ} (h : w.Keeps I J) :
    (popNode env w).Keeps I J := by
  unfold BootLoader.File.popNode
  cases hbelow : w.below with
  | nil => exact h
  | cons prev below =>
    have hall := h.below
    rw [hbelow, List.forall_mem_cons] at hall
    exact ⟨henv.freeNode _ _ (henv.close _ _ h.world h.top), hall.1, hall.2⟩

theorem Walk.Keeps.processComponent (henv : env.Keeps I J) {w : Walk σ φ} (h : w.Keeps I J)
    (filename : List Byte) (directory : Bool) :
    (processComponent env w filename directory).1.Keeps I J := by
  have hstep := processComponent_step env w filename directory
  generalize BootLoader.File.processComponent env w filename directory = out at hstep
  have hcallback := henv.callback _ filename directory _ h.world h.top
  cases hstep with
  | current => exact ⟨h.world, h.top, h.below⟩
  | previous =>
    have hpop := h.popNode henv
    exact ⟨hpop.world, hpop.top, hpop.below⟩
  | found _ _ hcall =>
    have hfound := henv.found _ _ _ _ _ h.world h.top (congrArg Prod.snd hcall)
    rw [hcall] at hcallback
    exact ⟨hcallback, hfound, List.forall_mem_cons.mpr ⟨h.top, h.below⟩⟩
  | notFound _ _ hcall =>
    rw [hcall] at hcallback
    exact ⟨hcallback, h.top, h.below⟩

theorem FsEnv.Keeps.blStrtok (henv : env.Keeps I J) {world world' : σ} {fuel : Nat}
    {t t' : Tokenizer} {token : Option Nat} (h : I world)
    (hcall : blStrtok env fuel world t = some (world', t', token)) : I world' := by
  unfold BootLoader.File.blStrtok at hcall
  split at hcall
  · cases hcall
  · split_ifs at hcall
    · obtain ⟨rfl, -⟩ := Prod.mk.inj (Option.some.inj hcall)
      exact h
    · split at hcall
      · cases hcall
      · split_ifs at hcall
        · obtain ⟨rfl, -⟩ := Prod.mk.inj (Option.some.inj hcall)
          exact h
        · obtain ⟨rfl, -⟩ := Prod.mk.inj (Option.some.inj hcall)
          exact henv.clear _ _ h

theorem Walk.Keeps.iterateLoop (henv : env.Keeps I J) {path : List Byte} {scan fuel : Nat}
    {w w' : Walk σ φ} {t : Tokenizer} {token : Option Nat} {status : BlStatus} (h : w.Keeps I J)
    (hloop : iterateLoop env path scan fuel w t token = some (w', status)) : w'.Keeps I J := by
  induction fuel generalizing w t token with
  | zero => cases hloop
  | succ fuel ih =>
    cases token with
    | none =>
      cases hloop
      exact h
    | some start =>
      rw [BootLoader.File.iterateLoop] at hloop
      split at hloop
      · cases hloop
      next world t next hcall =>
      split at hloop
      · cases hloop
      next filename hname =>
      have hworld : Walk.Keeps I J { w with world } :=
        ⟨henv.blStrtok h.world hcall, h.top, h.below⟩
      have hnext := hworld.processComponent henv filename (next.isSome || endsInDelimiter path)
      simp only at hloop
      split at hloop
      next heq =>
        rw [heq] at hnext
        exact ih hnext hloop
      next heq =>
        cases hloop
        rw [heq] at hnext
        exact hnext

theorem FsEnv.Keeps.releaseBelow (henv : env.Keeps I J) {below : List (Node φ)} {world : σ}
    (h : I world) (hbelow : ∀ n ∈ below, J n.fdata) : I (releaseBelow env below world).1 := by
  induction below generalizing world with
  | nil => exact h
  | cons n below ih =>
    rw [List.forall_mem_cons] at hbelow
    exact ih (henv.freeNode _ _ (henv.close _ _ h hbelow.1)) hbelow.2

/-- A property that each function keeps is kept by the whole, and holds of the data returned. -/
theorem FsEnv.Keeps.blFileIteratePath (henv : env.Keeps I J) {world : σ} {path : CString} {root : φ}
    {out : Outcome σ φ} (h : I world) (hroot : J root)
    (hrun : blFileIteratePath env world path root = some out) :
    I out.world ∧ ∀ fdata, out.fdata = some fdata → J fdata := by
  unfold BootLoader.File.blFileIteratePath at hrun
  cases hcopy : env.strndup world (path.1.length + 1) with
  | none =>
    rw [hcopy] at hrun
    obtain rfl := Option.some.inj hrun
    exact ⟨h, fun fdata hnone => by cases hnone⟩
  | some copied =>
    have hcopied := henv.strndup _ _ _ h hcopy
    simp only [hcopy, iterateCopy, Option.bind_eq_some_iff, Option.map_eq_some_iff] at hrun
    obtain ⟨⟨world₁, t, token⟩, htoken, ⟨w, status⟩, hloop, rfl⟩ := hrun
    have hstart : (Walk.start world₁ root).Keeps I J :=
      ⟨henv.blStrtok hcopied htoken, hroot, fun n hn => absurd hn List.not_mem_nil⟩
    have hend := hstart.iterateLoop henv hloop
    refine ⟨henv.freeCopy _ (henv.freeNode _ _ (henv.releaseBelow hend.world hend.below)), ?_⟩
    intro fdata hfdata
    simp only [leave] at hfdata
    split_ifs at hfdata
    obtain rfl := Option.some.inj hfdata
    exact hend.top

end BootLoader.File
