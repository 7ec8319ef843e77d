import Stencil.Token.Lexer

/-!
# How sources are cut

One piece is cut off a source at a time: the next one begins behind it, in the section
that the piece leaves open.
-/

namespace Stencil

theorem lexFrom_nil (options : LexerOptions) (inside : Section) (p : Position) :
    lexFrom options inside p [] = ⟨atEnd inside p, p⟩ := by
  rw [lexFrom]

theorem lexFrom_finished (options : LexerOptions) (p : Position) (c : Char) (cs : List Char) :
    lexFrom options .finished p (c :: cs) = ⟨[], p⟩ := by
  rw [lexFrom, if_pos rfl]

theorem lexFrom_cons {options : LexerOptions} {inside following : Section} {p : Position} {c : Char}
    {cs : List Char} {kind : PieceKind} {more : Nat} (hne : inside ≠ .finished)
    (h : nextPiece options inside p c cs = (kind, more, following)) :
    lexFrom options inside p (c :: cs) =
      let rest := lexFrom options following (p.after (c :: cs.take more)) (cs.drop more)
      ⟨.piece ⟨kind, c :: cs.take more, p⟩ :: rest.items, rest.stop⟩ := by
  rw [lexFrom, if_neg hne, h]

end Stencil
