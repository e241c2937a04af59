import InteropHeader.Main
import InteropHeader.Manifest.Json
import InteropHeader.Proofs.Command.Lossless
import InteropHeader.Proofs.Command.Written
import InteropHeader.Proofs.Directive.MacroTable
import InteropHeader.Proofs.Header.CxxRegion
import InteropHeader.Proofs.Header.Enclosure
import InteropHeader.Proofs.Header.Faultless
import InteropHeader.Proofs.Header.Gating
import InteropHeader.Proofs.Header.Pragmas
import InteropHeader.Proofs.Header.Reinclusion
import InteropHeader.Proofs.Header.Restated
import InteropHeader.Proofs.Import.AnyOrder
import InteropHeader.Proofs.Import.Preorder
import InteropHeader.Proofs.Import.TopLevel
import InteropHeader.Proofs.Manifest.Distinct
import InteropHeader.Proofs.Manifest.Faithful
import InteropHeader.Proofs.Manifest.Json
import InteropHeader.Proofs.Manifest.Printable
import InteropHeader.Proofs.Module.PrefixTree
import InteropHeader.Storage.FileTree
