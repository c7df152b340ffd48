import OnchainInvoice.Evm.Crypto

/-!
# Deterministic clones

The address of a contract that `CREATE2` deploys, and the minimal proxies that OpenZeppelin's
`Clones` deploys with it.
-/

namespace Evm

def create2Address (crypto : Crypto) (deployer : Address) (salt initCodeHash : Bytes32) : Address :=
  wordAddress (crypto.keccak256
    ([0xff] ++ addressBytes deployer ++ wordBytes salt ++ wordBytes initCodeHash))

-- The creation code of a clone: the minimal proxy around the address of the implementation.
def cloneInitCode (implementation : Address) : Bytes :=
  [0x3d, 0x60, 0x2d, 0x80, 0x60, 0x0a, 0x3d, 0x39, 0x81, 0xf3,
    0x36, 0x3d, 0x3d, 0x37, 0x3d, 0x3d, 0x3d, 0x36, 0x3d, 0x73] ++
  addressBytes implementation ++
  [0x5a, 0xf4, 0x3d, 0x82, 0x80, 0x3e, 0x90, 0x3d, 0x91, 0x60, 0x2b, 0x57, 0xfd, 0x5b, 0xf3]

-- `Clones.predictDeterministicAddress`, and where `Clones.cloneDeterministic` puts the clone.
def cloneAddress (crypto : Crypto) (implementation : Address) (salt : Bytes32)
    (deployer : Address) : Address :=
  create2Address crypto deployer salt (crypto.keccak256 (cloneInitCode implementation))

end Evm
