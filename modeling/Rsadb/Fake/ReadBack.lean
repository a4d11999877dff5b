import Rsadb.Fake.Remote

/-! What was pushed is what is pulled. The file stays as it was pushed as long as
nothing else is pushed to its path, whatever else the client does. -/
namespace Rsadb.Fake

open Sync

/-- The operation pushes to the path. -/
def Operation.PushesTo (path : String) : Operation → Prop
  | push other .. => other = path
  | _ => False

/-- The file as it is after a push. -/
def pushedFile (mode mtime : UInt32) (chunks : List Bytes) : Node :=
  .file (S_IFREG ||| mode &&& 0o777) (Int64.ofNat mtime.toNat) chunks.flatten

section

variable {features : SyncFeatures} {fs : Fs}

/-- Operations one after the other are the first ones and then the rest. -/
theorem performAll_append (features : SyncFeatures) (fs : Fs) (before rest : List Operation) :
    performAll features fs (before ++ rest) =
      ((performAll features (performAll features fs before).1 rest).1,
        (performAll features fs before).2 ++
          (performAll features (performAll features fs before).1 rest).2) := by
  induction before generalizing fs with
  | nil => rfl
  | cons operation before ih => rw [List.cons_append, performAll, ih, performAll, List.cons_append]

theorem length_performAll (features : SyncFeatures) (fs : Fs) (operations : List Operation) :
    (performAll features fs operations).2.length = operations.length := by
  induction operations generalizing fs with
  | nil => rfl
  | cons operation rest ih => rw [performAll, List.length_cons, List.length_cons, ih]

/-- What is carried out later begins where the earlier operations have ended. -/
theorem getElem?_performAll (features : SyncFeatures) (fs : Fs) (before rest : List Operation) (index : Nat) :
    (performAll features fs (before ++ rest)).2[before.length + index]? =
      (performAll features (performAll features fs before).1 rest).2[index]? := by
  have hLength := length_performAll features fs before
  rw [performAll_append, List.getElem?_append_right (by omega), hLength, Nat.add_sub_cancel_left]

private theorem encode_injective {first second : String} (h : Utf8.encode first = Utf8.encode second) :
    first = second := by
  have hSame := congrArg (fun bytes : Bytes => String.fromUTF8? ⟨bytes.toArray⟩) h
  simp only [Utf8.fromUTF8_encode] at hSame
  exact Option.some.inj hSame

/-- What stands at a path stays there while nothing is pushed to it. -/
theorem get_performAll {path : String} (hPath : Fs.Absolute (Utf8.encode path)) {operations : List Operation}
    (hOthers : ∀ operation ∈ operations, ¬operation.PushesTo path) :
    (performAll features fs operations).1.get (Utf8.encode path) = fs.get (Utf8.encode path) := by
  induction operations generalizing fs with
  | nil => rfl
  | cons operation rest ih =>
      obtain ⟨hHere, hRest⟩ := List.forall_mem_cons.mp hOthers
      rw [performAll, ih hRest]
      cases operation with
      | push other mode mtime source chunks hSource =>
          have hOther : Utf8.encode other ≠ Utf8.encode path := fun hSame => hHere (encode_injective hSame)
          have hKept := @Fs.get_write fs (Utf8.encode path) (Utf8.encode other) chunks.flatten mode
            (Int64.ofNat mtime.toNat) hPath hOther
          simp only [Operation.perform]
          rcases hWrite : fs.write (Utf8.encode other) mode (Int64.ofNat mtime.toNat) chunks.flatten with
            ⟨_ | ⟨⟩, next⟩
          all_goals
            rw [hWrite] at hKept
            exact hKept
      | _ => rfl

/-- A push that succeeds puts the file at its path. -/
theorem get_perform_push {path : String} {mode mtime : UInt32} {source : List SourceRead} {chunks : List Bytes}
    {hSource : Delivers source chunks} (hPath : Fs.Absolute (Utf8.encode path))
    (hPushed : ((Operation.push path mode mtime source chunks hSource).perform features fs).2 = .ok .pushed) :
    ((Operation.push path mode mtime source chunks hSource).perform features fs).1.get (Utf8.encode path) =
      some (pushedFile mode mtime chunks) := by
  simp only [Operation.perform] at hPushed ⊢
  rcases hWrite : fs.write (Utf8.encode path) mode (Int64.ofNat mtime.toNat) chunks.flatten with
    ⟨e | ⟨⟩, next⟩
  · rw [hWrite] at hPushed
    cases hPushed
  · exact Fs.write_ok hWrite hPath

end

/-- A client pushes a file and is told that this has succeeded. Whatever it then
does that is no push to the same path, pulling the file yields what was pushed,
in chunks of the largest size, and its stat has the pushed mode, time and size. -/
theorem read_your_writes {features : SyncFeatures} {fs : Fs} {reader : ChannelReader} {path : String}
    {mode mtime : UInt32} {source : List SourceRead} {chunks : List Bytes} {hSource : Delivers source chunks}
    {before between operations : List Operation} {polls : Nat} {pieces : List Bytes}
    (hOperations : operations = before ++ .push path mode mtime source chunks hSource ::
      (between ++ [.pull path polls, .stat path]))
    (hConnected : Connected features fs reader operations pieces) (hShort : fs.Short)
    (hFits : ∀ operation ∈ operations, operation.Fits) (hPolled : AllPolled features fs operations)
    (hPath : Fs.Absolute (Utf8.encode path)) (hOthers : ∀ operation ∈ between, ¬operation.PushesTo path)
    (hPushed : (run features reader (operations.map Operation.call))[before.length]? =
      some (some (.ok .pushed))) :
    (run features reader (operations.map Operation.call))[before.length + 1 + between.length]? =
      some (some (.ok (.pulled ((Chunks.chunks DATA_MAX chunks.flatten).map .ok)))) ∧
    (run features reader (operations.map Operation.call))[before.length + 1 + between.length + 1]? =
      some (some (.ok (.stat (report features.statV2 (pushedFile mode mtime chunks).stat)))) := by
  rw [hConnected.run hShort hFits hPolled, List.getElem?_map] at hPushed ⊢
  rw [List.getElem?_map]
  subst hOperations
  rw [← Nat.add_zero before.length, getElem?_performAll, performAll, List.getElem?_cons_zero,
    Option.map_some] at hPushed
  have hFile := get_perform_push hPath (Option.some.inj (Option.some.inj hPushed))
  rw [← @get_performAll features _ path hPath between hOthers] at hFile
  have hLater : ∀ index, (performAll features fs (before ++ .push path mode mtime source chunks hSource ::
      (between ++ [.pull path polls, .stat path]))).2[before.length + 1 + between.length + index]? =
      (performAll features (performAll features ((Operation.push path mode mtime source chunks hSource).perform
        features (performAll features fs before).1).1 between).1 [.pull path polls, .stat path]).2[index]? := by
    intro index
    rw [Nat.add_assoc, Nat.add_assoc, getElem?_performAll, Nat.add_comm 1, performAll, List.getElem?_cons_succ,
      getElem?_performAll]
  generalize (performAll features ((Operation.push path mode mtime source chunks hSource).perform
    features (performAll features fs before).1).1 between).1 = now at hFile hLater
  have hPulled := hLater 0
  have hStat := hLater 1
  rw [Nat.add_zero] at hPulled
  rw [hPulled, hStat]
  constructor
  · simp only [performAll, Operation.perform, Fs.read, hFile, pushedFile, List.getElem?_cons_zero,
      Option.map_some]
  · simp only [performAll, Operation.perform, statOrMissing, Fs.stat, hFile, List.getElem?_cons_succ,
      List.getElem?_cons_zero, Option.map_some, Option.getD_some]

/-- A file is pushed, then another one, then the first one is read back. -/
private def pushTwice : List Operation :=
  [pushOfTwo, .push "/sdcard/b" 420 8 [] [] .exhausted, .pull "/sdcard/a" 3, .stat "/sdcard/a"]

private theorem pushTwice_fits : ∀ operation ∈ pushTwice, operation.Fits := by
  intro operation hMem
  simp only [pushTwice, List.mem_cons, List.not_mem_nil, or_false] at hMem
  obtain rfl | rfl | rfl | rfl := hMem <;> decide +kernel

private theorem pushTwice_polled : AllPolled ⟨true, true, true⟩ .new pushTwice := by
  have hLength := Chunks.length_chunks_le DATA_MAX ([1, 2] : Bytes)
  exact ⟨trivial, trivial, Nat.lt_succ_of_le hLength, trivial, trivial⟩

private theorem new_short : Fs.new.Short := by
  intro path hPath
  simp only [Fs.new, Fs.mkdir, Std.ExtTreeMap.mem_insert, Std.compare_eq_iff_eq, Std.ExtTreeMap.not_mem_empty,
    or_false] at hPath
  obtain rfl | rfl := hPath <;> decide

private theorem pushTwice_pushed :
    (run ⟨true, true, true⟩ (inOnePiece ⟨true, true, true⟩ .new pushTwice).1
      (pushTwice.map Operation.call))[0]? = some (some (.ok .pushed)) := by
  rw [(connected_inOnePiece _ _ pushTwice_fits).run new_short pushTwice_fits pushTwice_polled]
  rfl

/-- The first file comes back as it was pushed. -/
theorem read_your_writes_two_files :
    (run ⟨true, true, true⟩ (inOnePiece ⟨true, true, true⟩ .new pushTwice).1
      (pushTwice.map Operation.call))[2]? =
        some (some (.ok (.pulled ((Chunks.chunks DATA_MAX [[1, 2]].flatten).map .ok)))) ∧
    (run ⟨true, true, true⟩ (inOnePiece ⟨true, true, true⟩ .new pushTwice).1
      (pushTwice.map Operation.call))[3]? =
        some (some (.ok (.stat (report true (pushedFile 420 7 [[1, 2]]).stat)))) := by
  have hOthers : ∀ operation ∈ [Operation.push "/sdcard/b" 420 8 [] [] .exhausted],
      ¬operation.PushesTo "/sdcard/a" := by
    intro operation hMem hSame
    obtain rfl := List.mem_singleton.mp hMem
    exact absurd (show "/sdcard/b" = "/sdcard/a" from hSame) (by decide)
  obtain ⟨hPulled, hStat⟩ := @read_your_writes ⟨true, true, true⟩ .new _ "/sdcard/a" 420 7 _ [[1, 2]]
    (.chunk (by decide) .exhausted) [] _ pushTwice 3 _ rfl (connected_inOnePiece _ _ pushTwice_fits) new_short
    pushTwice_fits pushTwice_polled (by decide +kernel) hOthers pushTwice_pushed
  constructor
  · exact hPulled
  · exact hStat

end Rsadb.Fake
