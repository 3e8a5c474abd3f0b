import WireBench.Http.Response
import WireBench.Transport.Wire

/-!
# Sending responses

A response is written in pieces: the head in one, the body in pieces of a bounded size, each
followed by a flush.
-/

namespace WireBench.Http

open WireBench.Transport

/-- Cuts bytes into pieces of one size, the last of which may be shorter. -/
def piecesOf (size : Nat) (bs : Bytes) : List Bytes :=
  if _h : bs = [] ∨ size = 0 then []
  else bs.take size :: piecesOf size (bs.drop size)
termination_by bs.length
decreasing_by
  have hb := List.length_pos_iff.2 (not_or.1 _h).1
  have hs := (not_or.1 _h).2
  rw [List.length_drop]
  omega

theorem flatten_piecesOf {size : Nat} (hs : 0 < size) (bs : Bytes) :
    (piecesOf size bs).flatten = bs := by
  fun_induction piecesOf size bs with
  | case1 bs h =>
    rcases h with rfl | h
    · rfl
    · omega
  | case2 bs h ih => rw [List.flatten_cons, ih, List.take_append_drop]

theorem length_of_mem_piecesOf {size : Nat} {bs piece : Bytes} (h : piece ∈ piecesOf size bs) :
    0 < piece.length ∧ piece.length ≤ size := by
  fun_induction piecesOf size bs with
  | case1 bs h' => simp at h
  | case2 bs h' ih =>
    rcases List.mem_cons.1 h with rfl | h
    · have hb := List.length_pos_iff.2 (not_or.1 h').1
      have hs := (not_or.1 h').2
      rw [List.length_take]
      omega
    · exact ih h

def Response.pieces (response : Response) (chunk : Nat) (withBody : Bool) : List Bytes :=
  response.head :: if withBody then piecesOf (max chunk 1) response.body else []

theorem Response.flatten_pieces (response : Response) (chunk : Nat) (withBody : Bool) :
    (response.pieces chunk withBody).flatten =
      response.head ++ if withBody then response.body else [] := by
  rw [Response.pieces]
  rw [List.flatten_cons]
  split
  · rw [flatten_piecesOf (by omega)]
  · rfl

/-- Writes a response in pieces of at most `chunk` bytes of body, or its head only, and counts the
bytes of body. -/
def Response.send (response : Response) (peer : Peer) (chunk : Nat) (withBody : Bool)
    (wire : Wire) : Except Fault Nat × Wire :=
  match wire.deliver peer (response.pieces chunk withBody) with
  | (some fault, wire) => (.error fault, wire)
  | (none, wire) => (.ok (if withBody then response.body.length else 0), wire)

end WireBench.Http
