import PageSheet.Disk
import PageSheet.Item.Descent
import PageSheet.Main
import PageSheet.Proofs.Acceptance
import PageSheet.Proofs.FirstLexeme
import PageSheet.Proofs.Grammar
import PageSheet.Proofs.Places
import PageSheet.Proofs.Reading
import PageSheet.Proofs.Rebuilding
import PageSheet.Proofs.Spelling
import PageSheet.Proofs.Tiling
import PageSheet.Proofs.Words
import PageSheet.Proofs.Writing
import PageSheet.Trace
import PageSheet.Proofs.Canonical
import PageSheet.Proofs.Uncommented
import PageSheet.Proofs.Commenting
import PageSheet.Proofs.Composition
import PageSheet.Proofs.Conservation
import PageSheet.Proofs.Essence
import PageSheet.Proofs.Legibility
import PageSheet.Proofs.Outline
import PageSheet.Proofs.Cutting
import PageSheet.Proofs.OpenPieces
import PageSheet.Proofs.Brackets
import PageSheet.Proofs.Closing
import PageSheet.Proofs.Following
import PageSheet.Proofs.Seclusion
import PageSheet.Proofs.Trees
import PageSheet.Proofs.Growth
import PageSheet.Proofs.GivenValues
import PageSheet.Proofs.Footprint
import PageSheet.Proofs.Locating
import PageSheet.Proofs.Restarting
import PageSheet.Proofs.Layout
import PageSheet.Proofs.Fusing
import PageSheet.Proofs.Reordering
import PageSheet.Proofs.Definitions
import PageSheet.Proofs.Building
import PageSheet.Proofs.AttributeNames
import PageSheet.Proofs.Accounting
import PageSheet.Proofs.Omissions
import PageSheet.Proofs.DocumentOrder
import PageSheet.Proofs.Resolving
import PageSheet.Proofs.Fetching
import PageSheet.Proofs.Overwriting
import PageSheet.Proofs.Descending
